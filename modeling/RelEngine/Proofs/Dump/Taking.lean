import Mathlib.Data.List.TakeWhile
import RelEngine.Proofs.Dump.Reading

/-!
What a read that succeeds has taken from its file. `Read.Gives` says that certain bytes are read in a
certain way; here the read comes first and tells what the bytes must have been. It also follows that a
reader never leaves its file and that reading until the end needs no bound on its steps.
-/
namespace RelEngine

/-! ## Readers in their files -/

/-- The reader stands in this file, at the end at the latest, and what is left is the file from there on. -/
structure Reader.Inside (r : Reader) (bytes : Bytes) : Prop where
  within : r.position ≤ bytes.length
  rest : r.rest = bytes.drop r.position

/-- The second reader stands behind these bytes, which were next for the first one. -/
structure Reader.Passes (r r' : Reader) (chunk : Bytes) : Prop where
  file : r'.file = r.file
  rest : r.rest = chunk ++ r'.rest
  position : r'.position = r.position + chunk.length

namespace Reader

theorem Passes.refl (r : Reader) : r.Passes r [] := ⟨rfl, rfl, rfl⟩

theorem Passes.trans {r r' r'' : Reader} {chunk chunk' : Bytes} (h : r.Passes r' chunk)
    (h' : r'.Passes r'' chunk') : r.Passes r'' (chunk ++ chunk') where
  file := h'.file.trans h.file
  rest := by rw [h.rest, h'.rest, List.append_assoc]
  position := by rw [h'.position, h.position, List.length_append, Nat.add_assoc]

theorem Inside.passes {r r' : Reader} {bytes chunk : Bytes} (inside : r.Inside bytes)
    (h : r.Passes r' chunk) : r'.Inside bytes := by
  obtain ⟨within, rest⟩ := inside
  have split := h.rest
  have length := congrArg List.length split
  rw [rest, List.length_drop, List.length_append] at length
  constructor
  · rw [h.position]
    omega
  · rw [h.position, ← List.drop_drop, ← rest, split, List.drop_left]

theorem Passes.length_lt {r r' : Reader} {chunk : Bytes} (h : r.Passes r' chunk)
    (notEmpty : chunk ≠ []) : r'.rest.length < r.rest.length := by
  have positive := List.length_pos_of_ne_nil notEmpty
  rw [h.rest, List.length_append]
  omega

end Reader

namespace Read

variable {α β : Type} {m : Read α} {f : α → Read β} {spec spec' : α → Bytes → Prop}
  {Q : α → β → Bytes → Prop}

/-- If the read succeeds, its result and the bytes that it passed are related in this way. -/
def Takes (read : Read α) (spec : α → Bytes → Prop) : Prop :=
  ∀ r a r', StateT.run read r = .ok (a, r') → ∃ chunk, r.Passes r' chunk ∧ spec a chunk

theorem Takes.weaken (h : m.Takes spec) (more : ∀ a chunk, spec a chunk → spec' a chunk) :
    m.Takes spec' := by
  intro r a r' ok
  obtain ⟨chunk, passes, holds⟩ := h r a r' ok
  exact ⟨chunk, passes, more a chunk holds⟩

theorem takes_pure (a : α) : Takes (pure a) fun b chunk => b = a ∧ chunk = [] := by
  intro r b r' ok
  cases ok
  exact ⟨[], .refl r, rfl, rfl⟩

theorem takes_lift (c : Checked α) : Takes (liftM c) fun a chunk => c = .ok a ∧ chunk = [] := by
  intro r a r' ok
  cases c with
  | error e => cases ok
  | ok b =>
    cases ok
    exact ⟨[], .refl r, rfl, rfl⟩

theorem takes_corrupt (fault : DumpFault) : Takes (corrupt fault) spec := by
  intro r a r' ok
  cases ok

/-- What a composed read takes is what its first part takes and then what the second part takes. -/
theorem Takes.bind (first : m.Takes spec) (next : ∀ a, (f a).Takes (Q a)) :
    (m >>= f).Takes fun b chunk =>
      ∃ a chunk₁ chunk₂, chunk = chunk₁ ++ chunk₂ ∧ spec a chunk₁ ∧ Q a b chunk₂ := by
  intro r b r'' ok
  rw [StateT.run_bind] at ok
  obtain ⟨⟨a, r'⟩, isFirst, isNext⟩ := Checked.bind_eq_ok.1 ok
  obtain ⟨chunk₁, passes₁, holds₁⟩ := first r a r' isFirst
  obtain ⟨chunk₂, passes₂, holds₂⟩ := next a r' b r'' isNext
  exact ⟨chunk₁ ++ chunk₂, passes₁.trans passes₂, a, chunk₁, chunk₂, rfl, holds₁, holds₂⟩

/-- A read that ends with a computation on its result. -/
theorem Takes.bind_pure {g : α → β} (first : m.Takes spec) :
    (m >>= fun a => pure (g a)).Takes fun b chunk => ∃ a, b = g a ∧ spec a chunk := by
  refine (first.bind fun a => takes_pure (g a)).weaken ?_
  rintro b chunk ⟨a, chunk₁, chunk₂, rfl, holds, rfl, rfl⟩
  exact ⟨a, rfl, by rwa [List.append_nil]⟩

/-! ## Numbers and texts -/

theorem takes_take (n : Nat) : (take n).Takes fun bytes chunk => bytes = chunk ∧ chunk.length = n := by
  intro r bytes r' ok
  change StateT.run (if r.rest.length < n then _ else _) r = _ at ok
  split at ok
  · cases ok
  · next enough =>
    change Except.ok (r.rest.take n, Reader.mk r.file (r.position + n) (r.rest.drop n)) = _ at ok
    cases ok
    have length : (r.rest.take n).length = n := by
      rw [List.length_take]
      omega
    exact ⟨r.rest.take n, ⟨rfl, (List.take_append_drop n r.rest).symm, by rw [length]⟩, rfl, length⟩

theorem takes_number (count : Nat) :
    (number count).Takes fun n chunk => n < Nat.pow 256 count ∧ chunk = Bytes.bigEndian count n := by
  refine (takes_take count).bind_pure.weaken ?_
  rintro _ chunk ⟨_, rfl, rfl, length⟩
  obtain ⟨n, small, rfl⟩ := Bytes.exists_bigEndian length
  rw [Bytes.ofBigEndian_bigEndian small]
  exact ⟨small, rfl⟩

/-- What stands before the first zero, the zero, and what stands behind it. -/
theorem split_at_zero {bytes : Bytes} (h : (bytes.takeWhile (· != 0)).length < bytes.length) :
    bytes.takeWhile (· != 0) ++ 0 :: bytes.drop ((bytes.takeWhile (· != 0)).length + 1) = bytes := by
  induction bytes with
  | nil => cases h
  | cons b bytes ih =>
    by_cases isZero : b = 0
    · subst isZero
      rw [List.takeWhile_cons_of_neg (by decide)]
      rfl
    · have first : (b :: bytes).takeWhile (· != 0) = b :: bytes.takeWhile (· != 0) :=
        List.takeWhile_cons_of_pos (bne_iff_ne.2 isZero)
      rw [first, List.length_cons, List.length_cons] at h
      rw [first, List.cons_append, List.length_cons, List.drop_succ_cons, ih (Nat.lt_of_succ_lt_succ h)]

theorem takes_text : text.Takes fun s chunk => NoZero s ∧ chunk = Dump.text s := by
  intro r s r' ok
  change StateT.run (if r.rest.length ≤ (r.rest.takeWhile (· != 0)).length then _ else _) r = _ at ok
  split at ok
  · cases ok
  · next more =>
    cases isText : Utf8.decode? (r.rest.takeWhile (· != 0)) with
    | none =>
      rw [isText] at ok
      cases ok
    | some s' =>
      rw [isText] at ok
      cases ok
      have bytes := Utf8.encode_of_decode? isText
      have whole := split_at_zero (Nat.lt_of_not_le more)
      rw [← bytes] at whole ⊢
      refine ⟨Dump.text s, ⟨rfl, ?_, ?_⟩, fun isZero => ?_, rfl⟩
      · rw [Dump.text, List.append_assoc]
        exact whole.symm
      · rw [Dump.text, List.length_append]
        rfl
      · have mem := Utf8.zero_mem_encode.2 isZero
        rw [bytes] at mem
        have kept : ((0 : UInt8) != 0) = true := List.mem_takeWhile_imp (p := (· != 0)) mem
        cases kept

/-! ## Whole files -/

section

variable {step : β → Read β} {item : α → Bytes → Prop} {next : β → α → Checked β} {b b' : β}

/-- Every step that succeeds passes at least a byte. -/
def Advances (step : β → Read β) : Prop := ∀ b, (step b).Takes fun _ chunk => chunk ≠ []

theorem run_untilEndWithin_end {r : Reader} (atEnd : r.rest = []) (fuel : Nat) (b : β) :
    StateT.run (untilEndWithin step fuel b) r = .ok (b, r) := by
  cases fuel with
  | zero => rfl
  | succ fuel =>
    change StateT.run (if r.rest.isEmpty then _ else _) r = _
    rw [atEnd]
    rfl

theorem run_untilEndWithin_succ {r : Reader} (more : r.rest ≠ []) (fuel : Nat) (b : β) :
    StateT.run (untilEndWithin step (fuel + 1) b) r =
      StateT.run (step b) r >>= fun (b', r') => StateT.run (untilEndWithin step fuel b') r' := by
  change StateT.run (if r.rest.isEmpty then _ else step b >>= fun b' => untilEndWithin step fuel b') r = _
  rw [List.isEmpty_eq_false_iff.2 more]
  rfl

/-- More steps than there are bytes make no difference. -/
theorem run_untilEndWithin_of_le (advances : Advances step) {fuel : Nat} {r : Reader}
    (enough : r.rest.length ≤ fuel) (b : β) :
    StateT.run (untilEndWithin step fuel b) r = StateT.run (untilEndWithin step r.rest.length b) r := by
  generalize left : r.rest.length = bound
  induction bound using Nat.strong_induction_on generalizing fuel r b with
  | h bound ih =>
    by_cases atEnd : r.rest = []
    · rw [run_untilEndWithin_end atEnd, run_untilEndWithin_end atEnd]
    · have positive := List.length_pos_of_ne_nil atEnd
      obtain ⟨fuel, rfl⟩ := Nat.exists_eq_succ_of_ne_zero (n := fuel) (by omega)
      obtain ⟨bound, rfl⟩ := Nat.exists_eq_succ_of_ne_zero (n := bound) (by omega)
      rw [run_untilEndWithin_succ atEnd, run_untilEndWithin_succ atEnd]
      cases result : StateT.run (step b) r with
      | error e => rfl
      | ok next =>
        obtain ⟨b', r'⟩ := next
        obtain ⟨chunk, passes, notEmpty⟩ := advances b r b' r' result
        have fewer := passes.length_lt notEmpty
        rw [Checked.ok_bind, Checked.ok_bind]
        change StateT.run (untilEndWithin step fuel b') r' = StateT.run (untilEndWithin step bound b') r'
        have inFuel : r'.rest.length ≤ fuel := by omega
        have inBound : r'.rest.length ≤ bound := by omega
        rw [ih r'.rest.length (by omega) inFuel b' rfl, ih r'.rest.length (by omega) inBound b' rfl]

/-- The loop over a file is the unbounded one: it goes on as long as the file has bytes left. -/
theorem untilEnd_eq (advances : Advances step) (b : β) :
    untilEnd step b = (do
      if ← atEnd then return b
      untilEnd step (← step b)) := by
  funext r
  change StateT.run (untilEndWithin step r.rest.length b) r =
    StateT.run (if r.rest.isEmpty then pure b else step b >>= fun b' => untilEnd step b') r
  by_cases atEnd : r.rest = []
  · rw [run_untilEndWithin_end atEnd, atEnd]
    rfl
  · have positive := List.length_pos_of_ne_nil atEnd
    obtain ⟨fuel, length⟩ := Nat.exists_eq_succ_of_ne_zero (n := r.rest.length) (by omega)
    rw [List.isEmpty_eq_false_iff.2 atEnd, length, run_untilEndWithin_succ atEnd]
    change _ = StateT.run (step b >>= fun b' => untilEnd step b') r
    rw [StateT.run_bind]
    cases result : StateT.run (step b) r with
    | error e => rfl
    | ok next =>
      obtain ⟨b', r'⟩ := next
      obtain ⟨chunk, passes, notEmpty⟩ := advances b r b' r' result
      have fewer := passes.length_lt notEmpty
      exact run_untilEndWithin_of_le advances (by omega) b'

/-- The step reads one item: it takes exactly the bytes that some item has, and does what is to be done
for the item. -/
structure Parses (step : β → Read β) (item : α → Bytes → Prop) (next : β → α → Checked β) : Prop where
  notEmpty : ∀ a chunk, item a chunk → chunk ≠ []
  takes : ∀ b, (step b).Takes fun b' chunk => ∃ a, item a chunk ∧ next b a = .ok b'
  gives : ∀ a chunk, item a chunk → ∀ b, (step b).Gives chunk (next b a)

theorem Parses.holds (h : Parses step item next) {a : α} {chunk : Bytes} (isItem : item a chunk) :
    Holds step next a chunk :=
  ⟨h.notEmpty a chunk isItem, h.gives a chunk isItem⟩

theorem Parses.advances (h : Parses step item next) : Advances step := by
  intro b
  refine (h.takes b).weaken ?_
  rintro b' chunk ⟨a, isItem, _⟩
  exact h.notEmpty a chunk isItem

/-- The loop succeeds exactly on the concatenations of items that can all be done. -/
theorem Parses.run_untilEnd_eq_ok (h : Parses step item next) {file : String} {bytes : Bytes} :
    (untilEnd step b).run file bytes = .ok b' ↔ ∃ items chunks, List.Forall₂ item items chunks ∧
      chunks.flatten = bytes ∧ items.foldlM next b = .ok b' := by
  constructor
  · intro ok
    have split : ∀ {fuel : Nat} {r r' : Reader} {b : β}, r.rest.length ≤ fuel →
        StateT.run (untilEndWithin step fuel b) r = .ok (b', r') → ∃ items chunks,
          List.Forall₂ item items chunks ∧ chunks.flatten = r.rest ∧ items.foldlM next b = .ok b' := by
      intro fuel
      induction fuel with
      | zero =>
        intro r r' b enough ok
        cases ok
        exact ⟨[], [], .nil, (List.eq_nil_of_length_eq_zero (Nat.le_zero.1 enough)).symm, rfl⟩
      | succ fuel ih =>
        intro r r' b enough ok
        by_cases atEnd : r.rest = []
        · rw [run_untilEndWithin_end atEnd] at ok
          cases ok
          exact ⟨[], [], .nil, atEnd.symm, rfl⟩
        · rw [run_untilEndWithin_succ atEnd] at ok
          obtain ⟨⟨b₁, r₁⟩, isStep, ok⟩ := Checked.bind_eq_ok.1 ok
          obtain ⟨chunk, passes, a, isItem, isNext⟩ := h.takes b r b₁ r₁ isStep
          have fewer := passes.length_lt (h.notEmpty a chunk isItem)
          obtain ⟨items, chunks, areItems, whole, isRest⟩ := ih (by omega) ok
          refine ⟨a :: items, chunk :: chunks, .cons isItem areItems, ?_, ?_⟩
          · rw [List.flatten_cons, whole, passes.rest]
          · rw [List.foldlM_cons, isNext]
            exact isRest
    obtain ⟨⟨_, r'⟩, isLoop, eq⟩ := Checked.bind_eq_ok.1 ok
    cases eq
    exact split (r := ⟨file, 0, bytes⟩) (Nat.le_refl _) isLoop
  · rintro ⟨items, chunks, areItems, rfl, isResult⟩
    rw [run_untilEnd (areItems.imp fun _ _ => h.holds), isResult]

end

end Read

end RelEngine
