import RelEngine.Text.Utf8

/-!
A text that was encoded is read back, by the lenient reader as well. The strict reader takes no bytes but
those of a text.
-/
namespace RelEngine.Utf8

/-! ## Single bytes -/

/-- A byte in the range of an open piece that is not the last one extends the piece. -/
theorem piecesFrom_more {p : Partial} {b : UInt8} {bs : List UInt8} (low : p.low.toNat ≤ b.toNat)
    (high : b.toNat ≤ p.high.toNat) (more : 1 < p.missing) :
    piecesFrom (some p) (b :: bs) =
      piecesFrom (some ⟨p.bits * 64 + b.toNat % 64, p.missing - 1, 0x80, 0xbf⟩) bs := by
  have range : p.low ≤ b ∧ b ≤ p.high := ⟨UInt8.le_iff_toNat_le.2 low, UInt8.le_iff_toNat_le.2 high⟩
  have notLast : ¬ p.missing ≤ 1 := Nat.not_le_of_lt more
  rw [piecesFrom, step]
  simp only [range, notLast, and_self, if_true, if_false, List.nil_append]

/-- The last byte of an open piece makes it a character. -/
theorem piecesFrom_last {p : Partial} {b : UInt8} {bs : List UInt8} (low : p.low.toNat ≤ b.toNat)
    (high : b.toNat ≤ p.high.toNat) (last : p.missing ≤ 1) :
    piecesFrom (some p) (b :: bs) =
      some (Char.ofNat (p.bits * 64 + b.toNat % 64)) :: piecesFrom none bs := by
  have range : p.low ≤ b ∧ b ≤ p.high := ⟨UInt8.le_iff_toNat_le.2 low, UInt8.le_iff_toNat_le.2 high⟩
  rw [piecesFrom, step]
  simp only [range, last, and_self, if_true, List.cons_append, List.nil_append]

theorem piecesFrom_begin (b : UInt8) (bs : List UInt8) :
    piecesFrom none (b :: bs) = (begin b).1 ++ piecesFrom (begin b).2 bs := rfl

/-! ## Characters -/

theorem toNat_byte {n : Nat} (h : n < 256) : (UInt8.ofNat n).toNat = n := by
  rw [UInt8.toNat_ofNat', Nat.mod_eq_of_lt h]

/-- The bytes of a character are one piece. -/
theorem piecesFrom_encodeChar (c : Char) (rest : List UInt8) :
    piecesFrom none (String.utf8EncodeChar c ++ rest) = some c :: piecesFrom none rest := by
  have isChar : Char.ofNat c.val.toNat = c := Char.ofNat_toNat c
  have valid : c.val.toNat < 0xd800 ∨ 0xdfff < c.val.toNat ∧ c.val.toNat < 0x110000 := c.valid
  rw [String.utf8EncodeChar]
  generalize c.val.toNat = v at isChar valid
  split
  · next one =>
    have byte := toNat_byte (n := v) (by omega)
    rw [List.cons_append, List.nil_append, piecesFrom_begin, begin]
    simp only [byte]
    rw [if_pos (by omega), isChar]
    rfl
  split
  · next more two =>
    have first := toNat_byte (n := v / 64 % 32 + 0xc0) (by omega)
    have second := toNat_byte (n := v % 64 + 0x80) (by omega)
    rw [List.cons_append, List.cons_append, List.nil_append, piecesFrom_begin, begin]
    simp only [first]
    rw [if_neg (by omega), if_neg (by omega), if_pos (by omega), List.nil_append,
      piecesFrom_last (by rw [second]; simp) (by rw [second]; simp; omega) (by simp), second]
    simp only
    rw [show (v / 64 % 32 + 0xc0) % 32 * 64 + (v % 64 + 0x80) % 64 = v by omega, isChar]
  split
  · next more three =>
    have first := toNat_byte (n := v / 4096 % 16 + 0xe0) (by omega)
    have second := toNat_byte (n := v / 64 % 64 + 0x80) (by omega)
    have third := toNat_byte (n := v % 64 + 0x80) (by omega)
    rw [List.cons_append, List.cons_append, List.cons_append, List.nil_append, piecesFrom_begin,
      begin]
    simp only [first]
    rw [if_neg (by omega), if_neg (by omega), if_neg (by omega), if_pos (by omega),
      List.nil_append, piecesFrom_more _ _ (by simp), piecesFrom_last _ _ (by simp), second, third]
    · simp only
      rw [show ((v / 4096 % 16 + 0xe0) % 16 * 64 + (v / 64 % 64 + 0x80) % 64) * 64 +
        (v % 64 + 0x80) % 64 = v by omega, isChar]
    · rw [third]; simp
    · rw [third]; simp; omega
    · rw [second]
      simp only
      split
      · simp; omega
      · simp
    · rw [second]
      simp only
      split
      · simp; omega
      · simp; omega
  · next more =>
    have first := toNat_byte (n := v / 262144 % 8 + 0xf0) (by omega)
    have second := toNat_byte (n := v / 4096 % 64 + 0x80) (by omega)
    have third := toNat_byte (n := v / 64 % 64 + 0x80) (by omega)
    have fourth := toNat_byte (n := v % 64 + 0x80) (by omega)
    rw [List.cons_append, List.cons_append, List.cons_append, List.cons_append, List.nil_append,
      piecesFrom_begin, begin]
    simp only [first]
    rw [if_neg (by omega), if_neg (by omega), if_neg (by omega), if_neg (by omega),
      if_pos (by omega), List.nil_append, piecesFrom_more _ _ (by simp),
      piecesFrom_more _ _ (by simp), piecesFrom_last _ _ (by simp), second, third, fourth]
    · simp only
      rw [show (((v / 262144 % 8 + 0xf0) % 8 * 64 + (v / 4096 % 64 + 0x80) % 64) * 64 +
        (v / 64 % 64 + 0x80) % 64) * 64 + (v % 64 + 0x80) % 64 = v by omega, isChar]
    · rw [fourth]; simp
    · rw [fourth]; simp; omega
    · rw [third]; simp
    · rw [third]; simp; omega
    · rw [second]
      simp only
      split
      · simp; omega
      · simp
    · rw [second]
      simp only
      split
      · simp; omega
      · simp; omega

theorem pieces_encode (s : String) : pieces (encode s) = s.toList.map some := by
  rw [pieces, encode]
  induction s.toList with
  | nil => rfl
  | cons c cs ih => rw [List.flatMap_cons, piecesFrom_encodeChar, ih, List.map_cons]

theorem decodeLenient_encode (s : String) : decodeLenient (encode s) = s := by
  rw [decodeLenient, pieces_encode, List.map_map]
  have same : (fun piece : Piece => piece.getD '\ufffd') ∘ some = id := rfl
  rw [same, List.map_id, String.ofList_toList]

theorem decode?_encode (s : String) : decode? (encode s) = some s := by
  have all : ∀ l : List Char, (l.map (some : Char → Piece)).mapM id = some l := by
    intro l
    induction l with
    | nil => rfl
    | cons c l ih =>
      rw [List.map_cons, List.mapM_cons, ih]
      rfl
  rw [decode?, pieces_encode, all, Option.map_some, String.ofList_toList]

/-! ## Zero bytes -/

theorem ofNat_ne_zero {n : Nat} (low : 0 < n) (high : n < 256) : UInt8.ofNat n ≠ 0 := by
  intro eq
  have same := congrArg UInt8.toNat eq
  rw [toNat_byte high] at same
  exact absurd same (Nat.ne_of_gt low)

/-- Only the zero character has a zero byte. -/
theorem ne_zero_of_mem_encodeChar {c : Char} (notZero : c ≠ '\x00') {b : UInt8}
    (mem : b ∈ String.utf8EncodeChar c) : b ≠ 0 := by
  have positive : 0 < c.val.toNat := by
    apply Nat.pos_of_ne_zero
    intro zero
    apply notZero
    rw [← Char.ofNat_toNat c, Char.toNat, zero]
  rw [String.utf8EncodeChar] at mem
  generalize c.val.toNat = v at mem positive
  split at mem
  · rw [List.mem_singleton] at mem
    exact mem ▸ ofNat_ne_zero positive (by omega)
  split at mem
  · simp only [List.mem_cons, List.not_mem_nil, or_false] at mem
    rcases mem with rfl | rfl
    · exact ofNat_ne_zero (by omega) (by omega)
    · exact ofNat_ne_zero (by omega) (by omega)
  split at mem
  · simp only [List.mem_cons, List.not_mem_nil, or_false] at mem
    rcases mem with rfl | rfl | rfl
    · exact ofNat_ne_zero (by omega) (by omega)
    · exact ofNat_ne_zero (by omega) (by omega)
    · exact ofNat_ne_zero (by omega) (by omega)
  · simp only [List.mem_cons, List.not_mem_nil, or_false] at mem
    rcases mem with rfl | rfl | rfl | rfl
    · exact ofNat_ne_zero (by omega) (by omega)
    · exact ofNat_ne_zero (by omega) (by omega)
    · exact ofNat_ne_zero (by omega) (by omega)
    · exact ofNat_ne_zero (by omega) (by omega)

theorem ne_zero_of_mem_encode {s : String} (noZero : '\x00' ∉ s.toList) {b : UInt8}
    (mem : b ∈ encode s) : b ≠ 0 := by
  obtain ⟨c, isChar, mem⟩ := List.mem_flatMap.1 mem
  exact ne_zero_of_mem_encodeChar (fun eq => noZero (eq ▸ isChar)) mem

theorem zero_mem_encode {s : String} : 0 ∈ encode s ↔ '\x00' ∈ s.toList := by
  constructor
  · intro mem
    exact Decidable.byContradiction fun noZero => ne_zero_of_mem_encode noZero mem rfl
  · intro mem
    exact List.mem_flatMap.2 ⟨'\x00', mem, by decide⟩

/-! ## Bytes that are valid -/

/-- The bytes of the character with number `v`. -/
theorem encodeChar_ofNat {v : Nat} (valid : v.isValidChar) :
    String.utf8EncodeChar (Char.ofNat v) =
      if v ≤ 127 then [UInt8.ofNat v]
      else if v ≤ 2047 then [UInt8.ofNat (v / 64 % 32 + 192), UInt8.ofNat (v % 64 + 128)]
      else if v ≤ 65535 then
        [UInt8.ofNat (v / 4096 % 16 + 224), UInt8.ofNat (v / 64 % 64 + 128), UInt8.ofNat (v % 64 + 128)]
      else
        [UInt8.ofNat (v / 262144 % 8 + 240), UInt8.ofNat (v / 4096 % 64 + 128),
          UInt8.ofNat (v / 64 % 64 + 128), UInt8.ofNat (v % 64 + 128)] := by
  have number : (Char.ofNat v).val.toNat = v := by
    rw [Char.ofNat, dif_pos valid]
    rfl
  rw [String.utf8EncodeChar, number]

theorem ofNat_eq {n : Nat} {b : UInt8} (h : n = b.toNat) : UInt8.ofNat n = b := by
  rw [h, UInt8.ofNat_toNat]

/-- What follows an open piece that turns out valid: a byte in its range, and behind that the rest of the
piece or, if it was the last one, the next pieces. -/
theorem piecesFrom_open_eq {bits missing : Nat} {low high : UInt8} {bs : List UInt8} {cs : List Char}
    (h : piecesFrom (some ⟨bits, missing, low, high⟩) bs = cs.map some) : ∃ b rest, bs = b :: rest ∧
      low.toNat ≤ b.toNat ∧ b.toNat ≤ high.toNat ∧
      (1 < missing →
        piecesFrom (some ⟨bits * 64 + b.toNat % 64, missing - 1, 0x80, 0xbf⟩) rest = cs.map some) ∧
      (missing ≤ 1 → ∃ cs', cs = Char.ofNat (bits * 64 + b.toNat % 64) :: cs' ∧
        piecesFrom none rest = cs'.map some) := by
  cases bs with
  | nil => cases cs <;> cases h
  | cons b rest =>
    by_cases range : low.toNat ≤ b.toNat ∧ b.toNat ≤ high.toNat
    · obtain ⟨above, below⟩ := range
      refine ⟨b, rest, rfl, above, below, fun more => ?_, fun last => ?_⟩
      · rw [piecesFrom_more above below more] at h
        exact h
      · rw [piecesFrom_last above below last] at h
        cases cs with
        | nil => cases h
        | cons c cs =>
          obtain ⟨same, others⟩ := List.cons_eq_cons.1 h
          exact ⟨cs, by rw [Option.some.inj same], others⟩
    · rw [← UInt8.le_iff_toNat_le, ← UInt8.le_iff_toNat_le] at range
      rw [piecesFrom, step] at h
      simp only [range, if_false] at h
      cases cs <;> cases h

/-- A bound that is tighter after one first byte. -/
theorem bounds_of_low {n special m : Nat} {tight loose : UInt8}
    (h : (if n = special then tight else loose).toNat ≤ m) (le : loose ≤ tight) :
    (n = special → tight.toNat ≤ m) ∧ loose.toNat ≤ m := by
  split at h
  · next isSpecial => exact ⟨fun _ => h, Nat.le_trans le h⟩
  · next other => exact ⟨fun eq => absurd eq other, h⟩

theorem bounds_of_high {n special m : Nat} {tight loose : UInt8}
    (h : m ≤ (if n = special then tight else loose).toNat) (le : tight ≤ loose) :
    (n = special → m ≤ tight.toNat) ∧ m ≤ loose.toNat := by
  split at h
  · next isSpecial => exact ⟨fun _ => h, Nat.le_trans h le⟩
  · next other => exact ⟨fun eq => absurd eq other, h⟩

/-- Where all pieces are characters, the bytes start with those of the first one. -/
theorem encodeChar_of_piecesFrom {b : UInt8} {bs : List UInt8} {cs : List Char}
    (h : piecesFrom none (b :: bs) = cs.map some) : ∃ c cs' rest, cs = c :: cs' ∧
      b :: bs = String.utf8EncodeChar c ++ rest ∧ piecesFrom none rest = cs'.map some := by
  rw [piecesFrom_begin, begin] at h
  generalize isByte : b.toNat = n at h
  split at h
  · next one =>
    cases cs with
    | nil => cases h
    | cons c cs =>
      obtain ⟨same, others⟩ := List.cons_eq_cons.1 h
      refine ⟨c, cs, bs, rfl, ?_, others⟩
      rw [← Option.some.inj same, encodeChar_ofNat (.inl (by omega)), if_pos (by omega),
        ofNat_eq isByte.symm, List.singleton_append]
  split at h
  · cases cs <;> cases h
  split at h
  · next two =>
    obtain ⟨b₂, rest, rfl, low₂, high₂, _, last⟩ := piecesFrom_open_eq h
    obtain ⟨cs', rfl, others⟩ := last (by decide)
    refine ⟨_, cs', rest, rfl, ?_, others⟩
    simp only [UInt8.reduceToNat] at low₂ high₂
    rw [encodeChar_ofNat (.inl (by omega)), if_neg (by omega), if_pos (by omega),
      ofNat_eq (b := b) (by omega), ofNat_eq (b := b₂) (by omega)]
    rfl
  split at h
  · next three =>
    obtain ⟨b₂, rest, rfl, low₂, high₂, more, _⟩ := piecesFrom_open_eq h
    obtain ⟨b₃, rest, rfl, low₃, high₃, _, last⟩ := piecesFrom_open_eq (more (by decide))
    obtain ⟨cs', rfl, others⟩ := last (by decide)
    refine ⟨_, cs', rest, rfl, ?_, others⟩
    -- The range of the second byte keeps out small numbers and surrogates.
    obtain ⟨large, above⟩ := bounds_of_low low₂ (by decide)
    obtain ⟨noSurrogate, below⟩ := bounds_of_high high₂ (by decide)
    clear low₂ high₂
    simp only [UInt8.reduceToNat] at large above noSurrogate below low₃ high₃
    rw [encodeChar_ofNat (by unfold Nat.isValidChar; omega), if_neg (by omega), if_neg (by omega),
      if_pos (by omega), ofNat_eq (b := b) (by omega), ofNat_eq (b := b₂) (by omega),
      ofNat_eq (b := b₃) (by omega)]
    rfl
  split at h
  · next four =>
    obtain ⟨b₂, rest, rfl, low₂, high₂, more, _⟩ := piecesFrom_open_eq h
    obtain ⟨b₃, rest, rfl, low₃, high₃, more, _⟩ := piecesFrom_open_eq (more (by decide))
    obtain ⟨b₄, rest, rfl, low₄, high₄, _, last⟩ := piecesFrom_open_eq (more (by decide))
    obtain ⟨cs', rfl, others⟩ := last (by decide)
    refine ⟨_, cs', rest, rfl, ?_, others⟩
    -- The range of the second byte keeps out small numbers and those above the last character.
    obtain ⟨large, above⟩ := bounds_of_low low₂ (by decide)
    obtain ⟨notAbove, below⟩ := bounds_of_high high₂ (by decide)
    clear low₂ high₂
    simp only [UInt8.reduceToNat] at large above notAbove below low₃ high₃ low₄ high₄
    rw [encodeChar_ofNat (by unfold Nat.isValidChar; omega), if_neg (by omega), if_neg (by omega),
      if_neg (by omega), ofNat_eq (b := b) (by omega), ofNat_eq (b := b₂) (by omega),
      ofNat_eq (b := b₃) (by omega), ofNat_eq (b := b₄) (by omega)]
    rfl
  · cases cs <;> cases h

theorem encode_of_piecesFrom {bs : List UInt8} {cs : List Char}
    (h : piecesFrom none bs = cs.map some) : cs.flatMap String.utf8EncodeChar = bs := by
  induction cs generalizing bs with
  | nil =>
    cases bs with
    | nil => rfl
    | cons b bs =>
      obtain ⟨c, cs', rest, empty, _⟩ := encodeChar_of_piecesFrom h
      cases empty
  | cons c cs ih =>
    cases bs with
    | nil => cases h
    | cons b bs =>
      obtain ⟨c, cs', rest, eq, bytes, others⟩ := encodeChar_of_piecesFrom h
      cases eq
      rw [List.flatMap_cons, ih others, bytes]

/-- Bytes that are read as a text are the bytes of this text. -/
theorem encode_of_decode? {bytes : List UInt8} {s : String} (h : decode? bytes = some s) :
    encode s = bytes := by
  rw [decode?, Option.map_eq_some_iff] at h
  obtain ⟨cs, read, rfl⟩ := h
  have all : ∀ {pieces : List Piece} {cs : List Char},
      pieces.mapM id = some cs → pieces = cs.map some := by
    intro pieces
    induction pieces with
    | nil =>
      intro cs h
      cases h
      rfl
    | cons piece pieces ih =>
      intro cs h
      rw [List.mapM_cons] at h
      obtain ⟨c, isChar, h⟩ := Option.bind_eq_some_iff.1 h
      obtain ⟨cs', rest, h⟩ := Option.bind_eq_some_iff.1 h
      cases h
      rw [List.map_cons, ← ih rest, ← isChar, id]
  rw [encode, String.toList_ofList]
  exact encode_of_piecesFrom (all read)

end RelEngine.Utf8
