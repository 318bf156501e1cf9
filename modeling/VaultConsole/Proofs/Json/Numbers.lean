import Mathlib.Data.List.DropRight
import Mathlib.Data.List.TakeDrop
import VaultConsole.Json.Reader
import VaultConsole.Proofs.Number.Shortest
import VaultConsole.Proofs.Text.Digits

/-!
# Numbers are read as they were written

A written number is a sign, a whole part, decimals behind a point and a power of ten, of which all but the
whole part may be missing. The reader takes these parts off one by one, and stops where the number does,
because nothing that follows a number in a document goes on with it. Whole numbers have only a whole part.
A number with a fraction has a point or a power, whatever its digits are, and its parts are worth the
decimal that it was written from.

* `Json.decimalText`: a number by its parts.
* `Json.readNumber_decimalText`: a number is read part by part.
* `Json.readNumber_ofInt`: **a whole number is read as it was written**, or has too many digits.
* `Binary64.exists_decimalText`: the parts that a finite number is written in.
* `Json.readNumber_text`: **a finite number is read as it was written.**
-/

namespace VaultConsole

namespace Json

/-! ## The parts of a number -/

/-- A text of digits. -/
def IsDigits (t : Text) : Prop := ∀ c ∈ t, c.isAsciiDigit = true

/-- What follows a number does not go on with it. -/
def Ends (rest : Text) : Prop :=
  ∀ c ∈ rest.head?, c.isAsciiDigit = false ∧ c ≠ '.' ∧ c ≠ 'e' ∧ c ≠ 'E'

/-- The whole part of a number: no zero stands in front of another digit. -/
def IsWhole (t : Text) : Prop :=
  t = [CodePoint.ofChar '0'] ∨ ∃ c rest, t = c :: rest ∧ c ≠ '0' ∧ IsDigits t

variable {whole decimals rest : Text} {c : CodePoint}

theorem IsWhole.isDigits (h : IsWhole whole) : IsDigits whole := by
  rcases h with rfl | ⟨c, more, rfl, -, hdigits⟩
  · intro c hc
    rw [List.mem_singleton.1 hc]
    rfl
  · exact hdigits

theorem takeDigits_append (hdigits : IsDigits decimals) (hrest : ∀ c ∈ rest.head?, c.isAsciiDigit = false) :
    takeDigits (decimals ++ rest) = (decimals, rest) := by
  rw [takeDigits, List.span_eq_takeWhile_dropWhile, List.takeWhile_append_of_pos hdigits,
    List.dropWhile_append_of_pos hdigits]
  cases rest with
  | nil => rw [List.takeWhile_nil, List.append_nil, List.dropWhile_nil]
  | cons c rest =>
    have hc := hrest c rfl
    rw [List.takeWhile_cons_of_neg (by rw [hc]; decide), List.append_nil,
      List.dropWhile_cons_of_neg (by rw [hc]; decide)]

theorem wholePart?_append (hwhole : IsWhole whole) (hrest : ∀ c ∈ rest.head?, c.isAsciiDigit = false) :
    wholePart? (whole ++ rest) = some (whole, rest) := by
  rcases hwhole with rfl | ⟨c, more, rfl, hc, hdigits⟩
  · rfl
  · have hdigit := hdigits c List.mem_cons_self
    have htake := takeDigits_append hdigits hrest
    rw [List.cons_append] at htake ⊢
    simp only [wholePart?, hc, if_false, hdigit, if_true, htake]

/-! ## Numbers -/

/-- The point of a number and its decimals, if it has any. -/
def pointText (decimals : Text) : Text := if decimals = [] then [] else CodePoint.ofChar '.' :: decimals

@[simp] theorem pointText_nil : pointText [] = [] := rfl

/-- The power of ten of a number, if it has one: whether it is negative, and its size. -/
def powerText : Option (Bool × Nat) → Text
  | none => []
  | some (minus, n) =>
    CodePoint.ofChar 'e' :: CodePoint.ofChar (if minus then '-' else '+') :: Text.padded 2 n

@[simp] theorem powerText_none : powerText none = [] := rfl

/-- The exponent that a power of ten is. -/
def exponentOf : Bool × Nat → Int
  | (minus, n) => if minus then -n else n

/-- A number: its sign, whole part, decimals and power of ten. -/
def decimalText (negative : Bool) (whole decimals : Text) (power : Option (Bool × Nat)) : Text :=
  (if negative then "-" else "") ++ (whole ++ (pointText decimals ++ powerText power))

variable {power : Option (Bool × Nat)}

theorem head?_powerText (hrest : Ends rest) :
    ∀ c ∈ (powerText power ++ rest).head?, c.isAsciiDigit = false ∧ c ≠ '.' := by
  cases power with
  | none => exact fun c hc => ⟨(hrest c hc).1, (hrest c hc).2.1⟩
  | some power =>
    rintro c ⟨⟩
    decide

theorem head?_pointText {t : Text} (ht : ∀ c ∈ t.head?, c.isAsciiDigit = false) :
    ∀ c ∈ (pointText decimals ++ t).head?, c.isAsciiDigit = false := by
  unfold pointText
  split
  · exact ht
  · rintro c ⟨⟩
    decide

theorem fraction?_pointText {t : Text} (hdecimals : IsDigits decimals)
    (ht : ∀ c ∈ t.head?, c.isAsciiDigit = false ∧ c ≠ '.') :
    fraction? (pointText decimals ++ t) = if decimals = [] then none else some (decimals, t) := by
  unfold pointText
  split
  · cases t with
    | nil => rfl
    | cons c t => exact if_neg (ht c rfl).2
  · next hne =>
    simp [fraction?, takeDigits_append hdecimals fun c hc => (ht c hc).1, hne]

theorem exponent?_powerText (hrest : Ends rest) :
    exponent? (powerText power ++ rest) = power.map fun p => (exponentOf p, rest) := by
  cases power with
  | none =>
    cases rest with
    | nil => rfl
    | cons c rest =>
      obtain ⟨-, -, he, hE⟩ := hrest c rfl
      exact if_neg (not_or.2 ⟨he, hE⟩)
  | some power =>
    obtain ⟨minus, n⟩ := power
    have htake : takeDigits (Text.padded 2 n ++ rest) = (Text.padded 2 n, rest) :=
      takeDigits_append (fun c hc => Text.isAsciiDigit_of_mem_padded hc) fun c hc => (hrest c hc).1
    have hne : (Text.padded 2 n).isEmpty = false := by
      rw [List.isEmpty_eq_false_iff]
      exact Text.padded_ne_nil 2 n
    have hvalue : digitsValue (Text.padded 2 n) = n := Text.foldl_padded 2 n
    have hplus : CodePoint.ofChar '+' ≠ CodePoint.ofChar '-' := by decide
    cases minus <;> simp [powerText, exponent?, exponentOf, htake, hne, hvalue, hplus]

/-- A number begins with a digit, after its sign. -/
theorem IsWhole.append_eq_cons (h : IsWhole whole) (t : Text) :
    ∃ c more, whole ++ t = c :: more ∧ c.isAsciiDigit = true := by
  rcases h with rfl | ⟨c, more, rfl, -, hdigits⟩
  · exact ⟨_, _, rfl, rfl⟩
  · exact ⟨c, more ++ t, rfl, hdigits c List.mem_cons_self⟩

/-- **A number is read part by part.** Without decimals and power it is a whole one. -/
theorem readNumber_decimalText {negative : Bool} (hwhole : IsWhole whole)
    (hdecimals : IsDigits decimals) (hrest : Ends rest) :
    readNumber (decimalText negative whole decimals power ++ rest) =
      if decimals = [] ∧ power = none then
        if whole.length > digitLimit then .error (.tooManyDigits whole.length)
        else .ok (.int (if negative then -digitsValue whole else digitsValue whole), rest)
      else .ok (.real (.ofDecimal negative (digitsValue (whole ++ decimals))
        ((power.map exponentOf).getD 0 - decimals.length)), rest) := by
  have hpower := @head?_powerText _ power hrest
  have hfraction := fraction?_pointText hdecimals hpower
  have hexponent := @exponent?_powerText _ power hrest
  have hwhole? := wholePart?_append hwhole (@head?_pointText decimals _ fun c hc => (hpower c hc).1)
  obtain ⟨c, more, hbody, hdigit⟩ := hwhole.append_eq_cons
    (pointText decimals ++ (powerText power ++ rest))
  have hminus : c ≠ '-' := by
    rintro rfl
    cases hdigit
  -- what is left after the whole part, and after the decimals
  obtain ⟨afterPoint, hafterPoint⟩ : ∃ t, t = powerText power ++ rest := ⟨_, rfl⟩
  obtain ⟨afterWhole, hafterWhole⟩ : ∃ t, t = pointText decimals ++ afterPoint := ⟨_, rfl⟩
  rw [← hafterPoint] at hfraction hexponent hwhole? hbody
  rw [← hafterWhole] at hfraction hwhole? hbody
  rw [hbody] at hwhole?
  have hpoint : ((fraction? afterWhole).map Prod.snd).getD afterWhole = afterPoint := by
    rw [hfraction]
    split
    · next hnone => rw [hafterWhole, hnone, pointText_nil, List.nil_append, Option.map_none, Option.getD_none]
    · rfl
  have hend : ((exponent? afterPoint).map Prod.snd).getD afterPoint = rest := by
    rw [hexponent]
    cases power with
    | none => rw [hafterPoint, powerText_none, List.nil_append]; rfl
    | some power => rfl
  have htext : decimalText negative whole decimals power ++ rest =
      Text.ofString (if negative then "-" else "") ++ c :: more := by
    rw [decimalText, List.append_assoc, List.append_assoc, List.append_assoc, ← hafterPoint,
      ← hafterWhole, hbody]
  rw [htext]
  cases negative with
  | true =>
    show readNumber ('-' :: c :: more) = _
    simp only [readNumber, if_true, hwhole?, hpoint, hend]
    rw [hfraction, hexponent]
    by_cases hnone : decimals = [] <;> cases power <;> simp [hnone]
  | false =>
    show readNumber (c :: more) = _
    simp only [readNumber, hminus, if_false, hwhole?, hpoint, hend]
    rw [hfraction, hexponent]
    by_cases hnone : decimals = [] <;> cases power <;> simp [hnone]

/-! ## Whole numbers -/

theorem isDigits_ofNat (n : Nat) : IsDigits (Text.ofNat n) := fun _ hc =>
  Text.isAsciiDigit_of_mem_padded (Text.ofNat_eq_padded n ▸ hc)

theorem digitsValue_ofNat (n : Nat) : digitsValue (Text.ofNat n) = n := by
  rw [Text.ofNat_eq_padded]
  exact Text.foldl_padded 0 n

theorem isWhole_ofNat (n : Nat) : IsWhole (Text.ofNat n) := by
  by_cases hn : n = 0
  · exact .inl (hn ▸ rfl)
  · obtain ⟨c, more, hdigits, hc⟩ := Text.ofNat_eq_cons hn
    exact .inr ⟨c, more, hdigits, hc, isDigits_ofNat n⟩

theorem ofInt_eq_decimalText (i : Int) :
    Text.ofInt i = decimalText (decide (i < 0)) (Text.ofNat i.natAbs) [] none := by
  rw [decimalText, pointText_nil, powerText_none, List.append_nil, List.append_nil]
  cases i with
  | ofNat n =>
    have hsign : decide (Int.ofNat n < 0) = false := decide_eq_false (Int.not_lt.2 (Int.natCast_nonneg n))
    rw [hsign]
    rfl
  | negSucc n =>
    rw [decide_eq_true (Int.negSucc_lt_zero n)]
    rfl

/-- **A whole number is read as it was written**, if it has no more digits than are read. -/
theorem readNumber_ofInt (i : Int) {rest : Text} (hrest : Ends rest) :
    readNumber (Text.ofInt i ++ rest) =
      if (Text.ofNat i.natAbs).length > digitLimit then
        .error (.tooManyDigits (Text.ofNat i.natAbs).length)
      else .ok (.int i, rest) := by
  have hvalue : (if decide (i < 0) = true then -(i.natAbs : Int) else i.natAbs) = i := by
    simp only [decide_eq_true_eq]
    split <;> omega
  rw [ofInt_eq_decimalText, readNumber_decimalText (isWhole_ofNat _) (List.forall_mem_nil _) hrest,
    if_pos ⟨rfl, rfl⟩, digitsValue_ofNat, hvalue]

/-! ## Digits -/

theorem digitsValue_append (a b : Text) :
    digitsValue (a ++ b) = digitsValue a * 10 ^ b.length + digitsValue b := by
  have hstart : ∀ (t : Text) (n : Nat), t.foldl (fun n d => n * 10 + d.digitValue) n =
      n * 10 ^ t.length + digitsValue t := by
    intro t
    induction t with
    | nil => simp [digitsValue]
    | cons c t ih =>
      intro n
      rw [digitsValue, List.foldl_cons, List.foldl_cons, ih, ih (0 * 10 + c.digitValue),
        List.length_cons, Nat.pow_succ]
      ring
  rw [digitsValue, List.foldl_append, hstart]
  rfl

theorem digitsValue_zeros (n : Nat) : digitsValue (List.replicate n (CodePoint.ofChar '0')) = 0 := by
  induction n with
  | zero => rfl
  | succ n ih =>
    rw [List.replicate_succ', digitsValue_append, ih]
    rfl

end Json

namespace Binary64

open Json (IsDigits IsWhole digitsValue digitsValue_append digitsValue_zeros)

/-- The digits of a number are those that count and zeros. -/
theorem ofNat_eq_significantDigits {digits : Nat} (hdigits : digits ≠ 0) :
    ∃ zeros, Text.ofNat digits =
        significantDigits digits ++ List.replicate zeros (CodePoint.ofChar '0') ∧
      ∃ c more, significantDigits digits = c :: more ∧ c ≠ '0' := by
  have hsplit := @List.rdropWhile_append_rtakeWhile _ (fun c => decide (c = CodePoint.ofChar '0'))
    (Text.ofNat digits)
  have hzeros : ∀ c ∈ (Text.ofNat digits).rtakeWhile fun c => decide (c = CodePoint.ofChar '0'),
      c = CodePoint.ofChar '0' := fun c hc => by
    have hzero := List.mem_rtakeWhile_imp hc
    exact of_decide_eq_true hzero
  rw [List.eq_replicate_of_mem hzeros] at hsplit
  obtain ⟨c, more, hcons, hc⟩ := Text.ofNat_eq_cons hdigits
  refine ⟨_, hsplit.symm, ?_⟩
  cases hds : significantDigits digits with
  | nil =>
    -- the first digit is no zero, so it counts
    have hds' : (Text.ofNat digits).rdropWhile (fun c => decide (c = CodePoint.ofChar '0')) = [] := hds
    rw [hds', List.nil_append, hcons] at hsplit
    have hmem : c ∈ c :: more := List.mem_cons_self
    rw [← hsplit] at hmem
    exact absurd (List.eq_of_mem_replicate hmem) hc
  | cons d ds =>
    have hds' : (Text.ofNat digits).rdropWhile (fun c => decide (c = CodePoint.ofChar '0')) = d :: ds := hds
    rw [hds', List.cons_append, hcons] at hsplit
    obtain ⟨rfl, -⟩ := List.cons_eq_cons.1 hsplit
    exact ⟨d, ds, rfl, hc⟩

/-- A text is a decimal of a value that has a point or a power of ten. -/
def Spells (t : Text) (value : ℚ) : Prop :=
  ∃ whole decimals power, IsWhole whole ∧ IsDigits decimals ∧ ¬ (decimals = [] ∧ power = none) ∧
    t = whole ++ (Json.pointText decimals ++ Json.powerText power) ∧
    (digitsValue (whole ++ decimals) : ℚ) *
      10 ^ ((power.map Json.exponentOf).getD 0 - decimals.length : Int) = value

section
variable {ds : Text} {point : Int}

theorem isDigits_zeros (n : Nat) : IsDigits (List.replicate n (CodePoint.ofChar '0')) := fun _ hc =>
  List.eq_of_mem_replicate hc ▸ rfl

/-- Digits behind the point, after zeros. -/
theorem spells_small (hds : IsDigits ds) (hne : ds ≠ []) (hpoint : point ≤ 0) :
    Spells ("0." ++ List.replicate (-point).toNat (CodePoint.ofChar '0') ++ ds)
      (digitsValue ds * 10 ^ (point - ds.length)) := by
  have hdecimals : List.replicate (-point).toNat (CodePoint.ofChar '0') ++ ds ≠ [] :=
    List.append_ne_nil_of_right_ne_nil _ hne
  have hexponent : (0 : Int) - ((-point).toNat + ds.length : Nat) = point - ds.length := by omega
  have hzero : digitsValue (Text.ofString "0") = 0 := rfl
  refine ⟨"0", List.replicate (-point).toNat (CodePoint.ofChar '0') ++ ds, none, .inl rfl,
    List.forall_mem_append.2 ⟨isDigits_zeros _, hds⟩, fun h => hdecimals h.1, ?_, ?_⟩
  · rw [Json.pointText, if_neg hdecimals, Json.powerText_none, List.append_nil]
    rfl
  · rw [digitsValue_append, digitsValue_append, hzero, digitsValue_zeros, Nat.zero_mul, Nat.zero_mul,
      Nat.zero_add, Nat.zero_add, List.length_append, List.length_replicate, Option.map_none,
      Option.getD_none, hexponent]

/-- Digits before the point, with zeros in front of it. -/
theorem spells_great (hds : IsDigits ds) {c : CodePoint} {more : Text} (hcons : ds = c :: more)
    (hc : c ≠ '0') (hpoint : (ds.length : Int) ≤ point) :
    Spells (ds ++ List.replicate (point - ds.length).toNat (CodePoint.ofChar '0') ++ ".0")
      (digitsValue ds * 10 ^ (point - ds.length)) := by
  obtain ⟨k, hk⟩ : ∃ k : Nat, point - ds.length = k := ⟨(point - ds.length).toNat, by omega⟩
  have hone : digitsValue (Text.ofString "0") = 0 := rfl
  have hlength : (Text.ofString "0").length = 1 := rfl
  rw [hk, Int.toNat_natCast]
  refine ⟨ds ++ List.replicate k (CodePoint.ofChar '0'), "0", none,
    .inr ⟨c, more ++ List.replicate k (CodePoint.ofChar '0'), ?_, hc, ?_⟩, fun c h => List.mem_singleton.1 h ▸ rfl, nofun, ?_, ?_⟩
  · rw [hcons]
    exact List.cons_append
  · exact List.forall_mem_append.2 ⟨hds, isDigits_zeros k⟩
  · rw [Json.powerText_none, List.append_nil]
    rfl
  · rw [digitsValue_append, digitsValue_append, hone, digitsValue_zeros, List.length_replicate, hlength,
      Option.map_none, Option.getD_none, zpow_natCast]
    norm_num
    ring

/-- Digits on both sides of the point. -/
theorem spells_between (hds : IsDigits ds) {c : CodePoint} {more : Text} (hcons : ds = c :: more)
    (hc : c ≠ '0') (hpoint : 0 < point) (hlength : point < ds.length) :
    Spells (ds.take point.toNat ++ "." ++ ds.drop point.toNat)
      (digitsValue ds * 10 ^ (point - ds.length)) := by
  obtain ⟨k, hk⟩ : ∃ k : Nat, point = (k + 1 : Nat) := ⟨(point - 1).toNat, by omega⟩
  have hdrop : ds.drop (k + 1) ≠ [] := by
    rw [Ne, List.drop_eq_nil_iff]
    omega
  have hexponent : (0 : Int) - (ds.length - (k + 1) : Nat) = (k + 1 : Nat) - ds.length := by omega
  rw [hk, Int.toNat_natCast]
  refine ⟨ds.take (k + 1), ds.drop (k + 1), none, .inr ⟨c, more.take k, ?_, hc, ?_⟩, ?_,
    fun h => hdrop h.1, ?_, ?_⟩
  · rw [hcons, List.take_succ_cons]
  · exact fun d hd => hds d (List.mem_of_mem_take hd)
  · exact fun d hd => hds d (List.mem_of_mem_drop hd)
  · rw [Json.pointText, if_neg hdrop, Json.powerText_none, List.append_nil, List.append_assoc]
    rfl
  · rw [List.take_append_drop, List.length_drop, Option.map_none, Option.getD_none, hexponent]

/-- One digit before the point, and a power of ten. -/
theorem spells_power (hds : IsDigits ds) {c : CodePoint} {more : Text} (hcons : ds = c :: more)
    (hc : c ≠ '0') :
    Spells (ds.take 1 ++ (if ds.length ≤ 1 then ([] : Text) else ("." : Text) ++ ds.drop 1) ++ "e" ++
        (if point - 1 < 0 then ("-" : Text) else ("+" : Text)) ++ Text.padded 2 (point - 1).natAbs)
      (digitsValue ds * 10 ^ (point - ds.length)) := by
  subst hcons
  refine ⟨[c], more, some (decide (point - 1 < 0), (point - 1).natAbs), ?_, ?_, nofun, ?_, ?_⟩
  · exact .inr ⟨c, [], rfl, hc, fun d hd => hds d (List.mem_singleton.1 hd ▸ List.mem_cons_self)⟩
  · exact fun d hd => hds d (List.mem_cons_of_mem c hd)
  · have hpoint : (if (c :: more).length ≤ 1 then ([] : Text) else ("." : Text) ++ (c :: more).drop 1) =
        Json.pointText more := by
      cases more <;> rfl
    rw [hpoint]
    simp only [Json.powerText, decide_eq_true_eq, List.append_assoc]
    split <;> rfl
  · have hexponent : Json.exponentOf (decide (point - 1 < 0), (point - 1).natAbs) = point - 1 := by
      simp only [Json.exponentOf, decide_eq_true_eq]
      split <;> omega
    rw [Option.map_some, Option.getD_some, hexponent, List.length_cons, Nat.cast_succ,
      show point - 1 - (more.length : Int) = point - (more.length + 1) by ring]
    rfl

end

/-- **A decimal is written as what spells it.** -/
theorem spells_write {digits : Nat} (hdigits : digits ≠ 0) (exponent : Int) :
    Spells (layout.write digits exponent) (digits * 10 ^ exponent) := by
  obtain ⟨zeros, hsplit, c, more, hcons, hc⟩ := ofNat_eq_significantDigits hdigits
  have hds : IsDigits (significantDigits digits) := fun d hd =>
    Json.isDigits_ofNat digits d (hsplit ▸ List.mem_append_left _ hd)
  have hlength : (Text.ofNat digits).length = (significantDigits digits).length + zeros := by
    rw [hsplit, List.length_append, List.length_replicate]
  have hvalue : (digits : ℚ) * 10 ^ exponent = digitsValue (significantDigits digits) *
      10 ^ (exponent + (Text.ofNat digits).length - (significantDigits digits).length : Int) := by
    have hcount := Json.digitsValue_ofNat digits
    rw [hsplit, digitsValue_append, digitsValue_zeros, List.length_replicate, Nat.add_zero] at hcount
    have hcast : (digits : ℚ) = digitsValue (significantDigits digits) * 10 ^ zeros := by
      exact_mod_cast hcount.symm
    have hpower : exponent + ((significantDigits digits).length + zeros : Nat) -
        (significantDigits digits).length = zeros + exponent := by
      push_cast
      ring
    rw [hlength, hcast, hpower, zpow_add₀ (by norm_num), zpow_natCast, mul_assoc]
  rw [hvalue]
  have hne : significantDigits digits ≠ [] := hcons ▸ List.cons_ne_nil _ _
  unfold Layout.write
  simp only
  generalize exponent + ((Text.ofNat digits).length : Int) = point
  generalize significantDigits digits = ds at *
  split
  · split
    · next hpoint => exact spells_small hds hne hpoint
    · next hpoint =>
      split
      · next hlong => exact spells_great hds hcons hc (by omega)
      · next hshort => exact spells_between hds hcons hc (by omega) (by omega)
  · exact spells_power hds hcons hc

theorem eq_zero_of_significand {biased : Fin 2047} {fraction : Fin fractions}
    (h : significand biased fraction = 0) (negative : Bool) :
    finite negative biased fraction = zero negative := by
  unfold significand at h
  have hbiased : biased.val = 0 := by
    by_contra hne
    rw [if_neg hne] at h
    exact absurd h (Nat.ne_of_gt (Nat.add_pos_left (by decide) _))
  rw [if_pos hbiased] at h
  rw [zero, show biased = ⟨0, by decide⟩ from Fin.ext hbiased,
    show fraction = ⟨0, by decide⟩ from Fin.ext h]

/-- A finite number is written as a decimal that is taken for it. -/
theorem exists_decimalText (negative : Bool) (biased : Fin 2047) (fraction : Fin fractions) :
    ∃ whole decimals power, IsWhole whole ∧ IsDigits decimals ∧ ¬ (decimals = [] ∧ power = none) ∧
      (finite negative biased fraction).text = Json.decimalText negative whole decimals power ∧
      ofDecimal negative (digitsValue (whole ++ decimals))
        ((power.map Json.exponentOf).getD 0 - decimals.length) = .finite negative biased fraction := by
  unfold text
  simp only
  split
  · next hzero =>
    refine ⟨"0", "0", none, .inl rfl, fun c h => List.mem_singleton.1 h ▸ rfl, nofun, ?_, ?_⟩
    · cases negative <;> rfl
    · rw [eq_zero_of_significand hzero]
      rfl
  · next hm =>
    have hnear := near_shortest hm
    obtain ⟨whole, decimals, power, hwhole, hdecimals, hreal, htext, hvalue⟩ :=
      spells_write (hnear.magnitude hm).1 (shortest biased fraction).2
    rw [← hvalue] at hnear
    refine ⟨whole, decimals, power, hwhole, hdecimals, hreal, ?_, ofDecimal_of_near hm hnear negative⟩
    rw [htext, Json.decimalText]
    cases negative <;> rfl

end Binary64

/-- **A finite number is read as it was written.** -/
theorem Json.readNumber_text {negative : Bool} {biased : Fin 2047} {fraction : Fin Binary64.fractions}
    {rest : Text} (hrest : Ends rest) :
    readNumber ((Binary64.finite negative biased fraction).text ++ rest) =
      .ok (.real (.finite negative biased fraction), rest) := by
  obtain ⟨whole, decimals, power, hwhole, hdecimals, hreal, htext, hvalue⟩ :=
    Binary64.exists_decimalText negative biased fraction
  rw [htext, readNumber_decimalText hwhole hdecimals hrest, if_neg hreal, hvalue]

end VaultConsole
