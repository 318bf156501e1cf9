import VaultConsole.Text.Utf8

/-!
# UTF-8 loses nothing

A text has an encoding exactly if it holds no surrogate, and then its bytes are read as the text
again. The line ends of a text stay as they are if none of them is a carriage return.

* `Text.Utf8.encode_eq_ok_iff`: which texts have an encoding, and which one.
* `Text.Utf8.decode_of_encode`: what was encoded is decoded.
* `Text.unifyNewlines_eq_self`.
-/

namespace VaultConsole.Text

namespace Utf8

theorem firstProblem?_eq_none_iff (start : Nat) (t : Text) :
    firstProblem? start t = none ↔ ∀ c ∈ t, c.isSurrogate = false := by
  induction t generalizing start with
  | nil => simp [firstProblem?]
  | cons c rest ih =>
    unfold firstProblem?
    by_cases hc : c.isSurrogate = true
    · simp [hc]
    · rw [if_neg hc, ih]
      simp [hc]

/-- A text has an encoding exactly if it holds no surrogate. -/
theorem encode_eq_ok_iff (t : Text) (bytes : List UInt8) :
    encode t = .ok bytes ↔ (∀ c ∈ t, c.isSurrogate = false) ∧ bytes = t.flatMap encodePoint := by
  unfold encode
  rw [← firstProblem?_eq_none_iff 0 t]
  cases firstProblem? 0 t with
  | none => simp [eq_comm]
  | some problem => simp

/-- The four lengths of an encoding, each with its bytes as numbers. -/
theorem encodePoint_cases (c : CodePoint) :
    (c.val < 0x80 ∧ encodePoint c = [c.val.toUInt8]) ∨
    (0x80 ≤ c.val ∧ c.val < 0x800 ∧
      encodePoint c = [(0xC0 + c.val / 0x40).toUInt8, (0x80 + c.val % 0x40).toUInt8]) ∨
    (0x800 ≤ c.val ∧ c.val < 0x10000 ∧
      encodePoint c = [(0xE0 + c.val / 0x1000).toUInt8, (0x80 + c.val / 0x40 % 0x40).toUInt8,
        (0x80 + c.val % 0x40).toUInt8]) ∨
    (0x10000 ≤ c.val ∧
      encodePoint c = [(0xF0 + c.val / 0x40000).toUInt8, (0x80 + c.val / 0x1000 % 0x40).toUInt8,
        (0x80 + c.val / 0x40 % 0x40).toUInt8, (0x80 + c.val % 0x40).toUInt8]) := by
  unfold encodePoint
  by_cases h1 : c.val < 0x80
  · exact .inl ⟨h1, if_pos h1⟩
  by_cases h2 : c.val < 0x800
  · exact .inr (.inl ⟨by omega, h2, by simp only [h1, h2, if_true, if_false]⟩)
  by_cases h3 : c.val < 0x10000
  · exact .inr (.inr (.inl ⟨by omega, h3, by simp only [h1, h2, h3, if_true, if_false]⟩))
  · exact .inr (.inr (.inr ⟨by omega, by simp only [h1, h2, h3, if_false]⟩))

theorem toNat_toUInt8 {n : Nat} (h : n < 256) : n.toUInt8.toNat = n := by
  simp [Nat.mod_eq_of_lt h]

theorem ofNat_val (c : CodePoint) : CodePoint.ofNat c.val = c := by
  unfold CodePoint.ofNat
  rw [dif_pos c.isLt]

/-- A byte in the middle of a sequence leads to the next. -/
theorem decodeFrom_more (place : Nat) (p : Pending) {n : Nat} (rest : List UInt8) (hn : n < 256)
    (hl : p.least ≤ n) (hg : n ≤ p.greatest) (ho : 1 < p.owed) :
    decodeFrom place (some p) (n.toUInt8 :: rest) =
      decodeFrom (place + 1)
        (some ⟨p.start, p.first, p.owed - 1, p.value * 0x40 + (n - 0x80), 0x80, 0xBF⟩) rest := by
  rw [decodeFrom, toNat_toUInt8 hn, if_pos ⟨hl, hg⟩]
  simp only
  rw [if_neg (by omega)]

/-- The last byte of a sequence completes a code point. -/
theorem decodeFrom_last (place : Nat) (p : Pending) {n : Nat} (rest : List UInt8) (hn : n < 256)
    (hl : p.least ≤ n) (hg : n ≤ p.greatest) (ho : p.owed ≤ 1) :
    decodeFrom place (some p) (n.toUInt8 :: rest) =
      (CodePoint.ofNat (p.value * 0x40 + (n - 0x80)) :: ·) <$>
        decodeFrom (place + 1) none rest := by
  rw [decodeFrom, toNat_toUInt8 hn, if_pos ⟨hl, hg⟩]
  simp only
  rw [if_pos ho]

/-- A first byte beyond ASCII begins a sequence. -/
theorem decodeFrom_first (place : Nat) {n : Nat} {p : Pending} (rest : List UInt8) (hn : n < 256)
    (h : 0x80 ≤ n) (hp : begin? place n.toUInt8 = some p) :
    decodeFrom place none (n.toUInt8 :: rest) = decodeFrom (place + 1) (some p) rest := by
  rw [decodeFrom, toNat_toUInt8 hn, if_neg (by omega), hp]

theorem decodeFrom_two (place : Nat) {n : Nat} (rest : List UInt8) (h0 : 0x80 ≤ n)
    (h1 : n < 0x800) :
    decodeFrom place none ((0xC0 + n / 0x40).toUInt8 :: (0x80 + n % 0x40).toUInt8 :: rest) =
      (CodePoint.ofNat n :: ·) <$> decodeFrom (place + 1 + 1) none rest := by
  have hb : begin? place (0xC0 + n / 0x40).toUInt8 =
      some ⟨place, (0xC0 + n / 0x40).toUInt8, 1, n / 0x40, 0x80, 0xBF⟩ := by
    unfold begin?
    simp only [toNat_toUInt8 (show 0xC0 + n / 0x40 < 256 by omega)]
    rw [if_pos (by omega), Nat.add_sub_cancel_left]
  rw [decodeFrom_first place _ (by omega) (by omega) hb,
    decodeFrom_last _ _ _ (by omega) (by simp only; omega) (by simp only; omega) (by simp only; omega)]
  simp only
  rw [show n / 0x40 * 0x40 + (0x80 + n % 0x40 - 0x80) = n by omega]

theorem decodeFrom_three (place : Nat) {n : Nat} (rest : List UInt8) (h0 : 0x800 ≤ n)
    (h1 : n < 0x10000) (hs : n < 0xD800 ∨ 0xDFFF < n) :
    decodeFrom place none ((0xE0 + n / 0x1000).toUInt8 :: (0x80 + n / 0x40 % 0x40).toUInt8 ::
        (0x80 + n % 0x40).toUInt8 :: rest) =
      (CodePoint.ofNat n :: ·) <$> decodeFrom (place + 1 + 1 + 1) none rest := by
  -- the bounds of the second byte keep out longer forms and surrogates
  obtain ⟨least, greatest, hb, hl, hg⟩ : ∃ least greatest,
      begin? place (0xE0 + n / 0x1000).toUInt8 =
        some ⟨place, (0xE0 + n / 0x1000).toUInt8, 2, n / 0x1000, least, greatest⟩ ∧
      least ≤ 0x80 + n / 0x40 % 0x40 ∧ 0x80 + n / 0x40 % 0x40 ≤ greatest := by
    unfold begin?
    simp only [toNat_toUInt8 (show 0xE0 + n / 0x1000 < 256 by omega)]
    rw [if_neg (by omega)]
    by_cases he : n / 0x1000 = 0
    · exact ⟨0xA0, 0xBF, by rw [if_pos (by omega), he], by omega, by omega⟩
    by_cases hd : n / 0x1000 = 0xD
    · exact ⟨0x80, 0x9F, by rw [if_neg (by omega), if_pos (by omega), hd], by omega, by omega⟩
    · refine ⟨0x80, 0xBF, ?_, by omega, by omega⟩
      rw [if_neg (by omega), if_neg (by omega), if_pos (by omega), Nat.add_sub_cancel_left]
  rw [decodeFrom_first place _ (by omega) (by omega) hb,
    decodeFrom_more _ _ _ (by omega) hl hg (by simp only; omega),
    decodeFrom_last _ _ _ (by omega) (by simp only; omega) (by simp only; omega) (by simp only; omega)]
  simp only
  rw [show (n / 0x1000 * 0x40 + (0x80 + n / 0x40 % 0x40 - 0x80)) * 0x40 +
    (0x80 + n % 0x40 - 0x80) = n by omega]

theorem decodeFrom_four (place : Nat) {n : Nat} (rest : List UInt8) (h0 : 0x10000 ≤ n)
    (h1 : n < 0x110000) :
    decodeFrom place none ((0xF0 + n / 0x40000).toUInt8 :: (0x80 + n / 0x1000 % 0x40).toUInt8 ::
        (0x80 + n / 0x40 % 0x40).toUInt8 :: (0x80 + n % 0x40).toUInt8 :: rest) =
      (CodePoint.ofNat n :: ·) <$> decodeFrom (place + 1 + 1 + 1 + 1) none rest := by
  obtain ⟨least, greatest, hb, hl, hg⟩ : ∃ least greatest,
      begin? place (0xF0 + n / 0x40000).toUInt8 =
        some ⟨place, (0xF0 + n / 0x40000).toUInt8, 3, n / 0x40000, least, greatest⟩ ∧
      least ≤ 0x80 + n / 0x1000 % 0x40 ∧ 0x80 + n / 0x1000 % 0x40 ≤ greatest := by
    unfold begin?
    simp only [toNat_toUInt8 (show 0xF0 + n / 0x40000 < 256 by omega)]
    rw [if_neg (by omega), if_neg (by omega), if_neg (by omega), if_neg (by omega)]
    by_cases he : n / 0x40000 = 0
    · exact ⟨0x90, 0xBF, by rw [if_pos (by omega), he], by omega, by omega⟩
    by_cases h4 : n / 0x40000 = 4
    · exact ⟨0x80, 0x8F, by rw [if_neg (by omega), if_neg (by omega), if_pos (by omega), h4],
        by omega, by omega⟩
    · refine ⟨0x80, 0xBF, ?_, by omega, by omega⟩
      rw [if_neg (by omega), if_pos (by omega), Nat.add_sub_cancel_left]
  rw [decodeFrom_first place _ (by omega) (by omega) hb,
    decodeFrom_more _ _ _ (by omega) hl hg (by simp only; omega),
    decodeFrom_more _ _ _ (by omega) (by simp only; omega) (by simp only; omega) (by simp only; omega),
    decodeFrom_last _ _ _ (by omega) (by simp only; omega) (by simp only; omega) (by simp only; omega)]
  simp only
  rw [show ((n / 0x40000 * 0x40 + (0x80 + n / 0x1000 % 0x40 - 0x80)) * 0x40 +
    (0x80 + n / 0x40 % 0x40 - 0x80)) * 0x40 + (0x80 + n % 0x40 - 0x80) = n by omega]

/-- The bytes of one code point are read as it, wherever they stand. -/
theorem decodeFrom_encodePoint (place : Nat) {c : CodePoint} (rest : List UInt8)
    (hc : c.isSurrogate = false) :
    ∃ next, decodeFrom place none (encodePoint c ++ rest) =
      (c :: ·) <$> decodeFrom next none rest := by
  have hs : c.val < 0xD800 ∨ 0xDFFF < c.val := by
    simp only [CodePoint.isSurrogate, Bool.and_eq_false_iff, decide_eq_false_iff_not] at hc
    omega
  have hlt := c.isLt
  rcases encodePoint_cases c with ⟨h, he⟩ | ⟨h0, h1, he⟩ | ⟨h0, h1, he⟩ | ⟨h0, he⟩
  · refine ⟨place + 1, ?_⟩
    rw [he, List.cons_append, List.nil_append, decodeFrom, toNat_toUInt8 (by omega), if_pos h,
      ofNat_val]
  · refine ⟨place + 1 + 1, ?_⟩
    rw [he, List.cons_append, List.cons_append, List.nil_append, decodeFrom_two place rest h0 h1,
      ofNat_val]
  · refine ⟨place + 1 + 1 + 1, ?_⟩
    rw [he, List.cons_append, List.cons_append, List.cons_append, List.nil_append,
      decodeFrom_three place rest h0 h1 hs, ofNat_val]
  · refine ⟨place + 1 + 1 + 1 + 1, ?_⟩
    rw [he, List.cons_append, List.cons_append, List.cons_append, List.cons_append,
      List.nil_append, decodeFrom_four place rest h0 hlt, ofNat_val]

theorem decodeFrom_flatMap (place : Nat) {t : Text} (h : ∀ c ∈ t, c.isSurrogate = false) :
    decodeFrom place none (t.flatMap encodePoint) = .ok t := by
  induction t generalizing place with
  | nil => rfl
  | cons c rest ih =>
    obtain ⟨next, hn⟩ :=
      decodeFrom_encodePoint place (rest.flatMap encodePoint) (h c List.mem_cons_self)
    rw [List.flatMap_cons, hn, ih next fun d hd => h d (List.mem_cons_of_mem c hd)]
    rfl

/-- **What was encoded is decoded.** -/
theorem decode_of_encode {t : Text} {bytes : List UInt8} (h : encode t = .ok bytes) :
    decode bytes = .ok t := by
  obtain ⟨hs, rfl⟩ := (encode_eq_ok_iff t bytes).1 h
  exact decodeFrom_flatMap 0 hs

/-- A text of ASCII is its own bytes. -/
theorem encode_ascii {t : Text} (h : ∀ c ∈ t, c.val < 0x80) :
    encode t = .ok (t.map fun c => c.val.toUInt8) := by
  rw [encode_eq_ok_iff]
  constructor
  · intro c hc
    have := h c hc
    simp only [CodePoint.isSurrogate, Bool.and_eq_false_iff, decide_eq_false_iff_not]
    omega
  · induction t with
    | nil => rfl
    | cons c rest ih =>
      have hc := h c List.mem_cons_self
      rw [List.flatMap_cons, ← ih fun d hd => h d (List.mem_cons_of_mem c hd)]
      simp [encodePoint, hc]

end Utf8

theorem unifyNewlines_eq_self {t : Text} (h : CodePoint.ofChar '\r' ∉ t) : unifyNewlines t = t := by
  induction t with
  | nil => rfl
  | cons c rest ih =>
    rw [List.mem_cons, not_or] at h
    unfold unifyNewlines
    rw [if_neg (fun hc => h.1 hc.symm), ih h.2]

end VaultConsole.Text
