import Mathlib.Data.List.Forall2
import RelEngine.Dump.Reader
import RelEngine.Dump.Write
import RelEngine.Proofs.Bytes
import RelEngine.Proofs.Checked
import RelEngine.Proofs.Text.Utf8

/-!
Reads that take exactly the bytes that were written, wherever these stand in a file. No record tells its
own length, so a file is read back record by record: each read stops where the next one has to start.
-/
namespace RelEngine

/-- A text that a dump can hold, for its texts end with a zero. -/
def NoZero (s : String) : Prop := '\x00' ∉ s.toList

instance (s : String) : Decidable (NoZero s) := inferInstanceAs (Decidable (_ ∉ _))

namespace Read

variable {α β : Type} {m : Read α} {f : α → Read β} {bytes bytes' : Bytes}

/-- Where the bytes come next, the read takes them and no more, and it has this result. -/
def Gives (read : Read α) (bytes : Bytes) (result : Checked α) : Prop :=
  ∀ file position rest, StateT.run read ⟨file, position, bytes ++ rest⟩ =
    result.map fun a => (a, ⟨file, position + bytes.length, rest⟩)

theorem gives_pure (a : α) : Gives (pure a) [] (.ok a) := fun _ _ _ => rfl

theorem gives_lift (c : Checked α) : Gives (liftM c) [] c := by
  intro file position rest
  cases c with
  | error e => rfl
  | ok a => rfl

/-- A read is followed by one that goes on behind its bytes. -/
theorem Gives.bind {result : Checked α} {g : α → Checked β} (first : m.Gives bytes result)
    (next : ∀ a, result = .ok a → (f a).Gives bytes' (g a)) :
    (m >>= f).Gives (bytes ++ bytes') (result >>= g) := by
  intro file position rest
  rw [StateT.run_bind, List.append_assoc, first]
  cases result with
  | error e => rfl
  | ok a =>
    rw [Checked.ok_bind, List.length_append, ← Nat.add_assoc, ← next a rfl]
    rfl

theorem Gives.bind_ok {a : α} {result : Checked β} (first : m.Gives bytes (.ok a))
    (next : (f a).Gives bytes' result) : (m >>= f).Gives (bytes ++ bytes') result := by
  refine first.bind (g := fun _ => result) fun b eq => ?_
  rw [← Except.ok.inj eq]
  exact next

/-- A read that ends with a computation on its result. -/
theorem Gives.bind_pure {a : α} {g : α → β} (first : m.Gives bytes (.ok a)) :
    (m >>= fun a => pure (g a)).Gives bytes (.ok (g a)) := by
  have both := first.bind_ok (f := fun a => pure (g a)) (gives_pure (g a))
  rw [List.append_nil] at both
  exact both

/-! ## Numbers and texts -/

theorem gives_take {n : Nat} (h : bytes.length = n) : (take n).Gives bytes (.ok bytes) := by
  intro file position rest
  have enough : ¬ (bytes ++ rest).length < n := by
    rw [List.length_append, h]
    exact Nat.not_lt.2 (Nat.le_add_right _ _)
  have taken : (bytes ++ rest).take n = bytes := List.take_left' h
  have left : (bytes ++ rest).drop n = rest := List.drop_left' h
  change StateT.run (if (bytes ++ rest).length < n then _ else _) _ = _
  rw [if_neg enough]
  change Except.ok ((bytes ++ rest).take n,
    Reader.mk file (position + n) ((bytes ++ rest).drop n)) = _
  rw [taken, left, ← h]
  rfl

theorem gives_number {count n : Nat} (h : n < Nat.pow 256 count) :
    (number count).Gives (Bytes.bigEndian count n) (.ok n) := by
  have read := (gives_take (Bytes.length_bigEndian count n)).bind_pure (g := Bytes.ofBigEndian)
  rw [Bytes.ofBigEndian_bigEndian h] at read
  exact read

/-- A text without a zero is read up to the zero behind it. -/
theorem gives_text {s : String} (noZero : NoZero s) : text.Gives (Dump.text s) (.ok s) := by
  intro file position rest
  have kept : ∀ b ∈ Utf8.encode s, (b != 0) = true := fun b mem =>
    bne_iff_ne.2 (Utf8.ne_zero_of_mem_encode noZero mem)
  have bytes : Dump.text s ++ rest = Utf8.encode s ++ 0 :: rest := by
    rw [Dump.text, List.append_assoc]
    rfl
  have found : (Utf8.encode s ++ 0 :: rest).takeWhile (· != 0) = Utf8.encode s := by
    rw [List.takeWhile_append_of_pos kept, List.takeWhile_cons_of_neg (by decide), List.append_nil]
  have enough : ¬ (Utf8.encode s ++ 0 :: rest).length ≤ (Utf8.encode s).length := by
    rw [List.length_append, List.length_cons]
    omega
  have left : (Utf8.encode s ++ 0 :: rest).drop ((Utf8.encode s).length + 1) = rest := by
    rw [← List.drop_drop, List.drop_left]
    rfl
  have length : (Dump.text s).length = (Utf8.encode s).length + 1 := by
    rw [Dump.text, List.length_append]
    rfl
  rw [bytes, length]
  change StateT.run (if (Utf8.encode s ++ 0 :: rest).length ≤
    ((Utf8.encode s ++ 0 :: rest).takeWhile (· != 0)).length then _ else _) _ = _
  rw [found, if_neg enough, Utf8.decode?_encode]
  change Except.ok (s, Reader.mk file (position + ((Utf8.encode s).length + 1))
    ((Utf8.encode s ++ 0 :: rest).drop ((Utf8.encode s).length + 1))) = _
  rw [left]
  rfl

/-! ## Whole files -/

section

variable {step : β → Read β} {next : β → α → Checked β} {items : List α} {chunks : List Bytes}

/-- The chunk of an item has some bytes, and reading it is doing the item's step. -/
def Holds (step : β → Read β) (next : β → α → Checked β) (a : α) (chunk : Bytes) : Prop :=
  chunk ≠ [] ∧ ∀ b, (step b).Gives chunk (next b a)

/-- Each step reads at least a byte, so there are never more steps than bytes. -/
theorem run_untilEndWithin (h : List.Forall₂ (Holds step next) items chunks) {fuel : Nat}
    (enough : chunks.flatten.length ≤ fuel) (file : String) (position : Nat) (b : β) :
    StateT.run (untilEndWithin step fuel b) ⟨file, position, chunks.flatten⟩ =
      (items.foldlM next b).map fun b => (b, ⟨file, position + chunks.flatten.length, []⟩) := by
  induction h generalizing fuel position b with
  | nil =>
    cases fuel with
    | zero => rfl
    | succ fuel => rfl
  | @cons a chunk items chunks holds _ ih =>
    obtain ⟨notEmpty, gives⟩ := holds
    rw [List.flatten_cons, List.length_append] at enough
    have positive := List.length_pos_of_ne_nil notEmpty
    obtain ⟨fuel, rfl⟩ := Nat.exists_eq_succ_of_ne_zero (n := fuel) (by omega)
    have more : (chunk ++ chunks.flatten).isEmpty = false := by
      rw [List.isEmpty_eq_false_iff]
      exact fun eq => notEmpty (List.append_eq_nil_iff.1 eq).1
    rw [List.flatten_cons, untilEndWithin, StateT.run_bind]
    change StateT.run (if (chunk ++ chunks.flatten).isEmpty then _ else _) _ = _
    rw [more]
    change StateT.run (step b >>= fun b => untilEndWithin step fuel b) _ = _
    rw [StateT.run_bind, gives, List.foldlM_cons]
    cases next b a with
    | error e => rfl
    | ok b' =>
      have left : chunks.flatten.length ≤ fuel := by omega
      have rest := ih left (position + chunk.length) b'
      rw [List.length_append, ← Nat.add_assoc]
      exact rest

/-- A file of chunks is read by doing the steps of all items in turn. -/
theorem run_untilEnd (h : List.Forall₂ (Holds step next) items chunks) (file : String) (b : β) :
    (untilEnd step b).run file chunks.flatten = items.foldlM next b := by
  have whole := run_untilEndWithin h (Nat.le_refl _) file 0 b
  change Except.map (·.1) (StateT.run (untilEndWithin step chunks.flatten.length b) _) = _
  rw [whole]
  cases items.foldlM next b with
  | error e => rfl
  | ok b' => rfl

end

end Read

end RelEngine
