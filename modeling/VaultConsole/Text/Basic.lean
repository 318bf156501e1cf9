/-!
# Text

A text is a list of Unicode code points. Surrogates are code points too: a text that was read
from an escaped document can hold one on its own, and such a text has no encoding.

* `CodePoint`, `Text`: the types; a `Char` or a `String` may stand where one is expected.
* `Text.splitOn`, `Text.joinWith`: lines and lists.
* `Text.occursIn`: the contiguous parts of a text.
* `Text.splitOn_joinWith`: joined pieces are found again.
* `Text.le`, `Text.sort`: the order by code points.
-/

namespace VaultConsole

/-- A Unicode code point, surrogates included. -/
structure CodePoint where
  val : Nat
  /-- Unicode ends at U+10FFFF. -/
  isLt : val < 0x110000
  deriving DecidableEq

namespace CodePoint

theorem ext {a b : CodePoint} (h : a.val = b.val) : a = b := by
  cases a; cases b; cases h; rfl

def ofChar (c : Char) : CodePoint :=
  ⟨c.toNat, by
    have h := c.valid
    simp only [Char.toNat, UInt32.isValidChar, Nat.isValidChar] at *
    omega⟩

instance : Coe Char CodePoint := ⟨ofChar⟩

/-- The code point of that number; beyond the last one, the replacement character. -/
def ofNat (n : Nat) : CodePoint :=
  if h : n < 0x110000 then ⟨n, h⟩ else ⟨0xFFFD, by decide⟩

/-- Halves of the pairs that stand for code points beyond U+FFFF. They have no encoding. -/
def isSurrogate (c : CodePoint) : Bool := 0xD800 ≤ c.val && c.val ≤ 0xDFFF

/-- The digits 0 to 9. -/
def isAsciiDigit (c : CodePoint) : Bool := 48 ≤ c.val && c.val ≤ 57

/-- The number that a digit 0 to 9 stands for. -/
def digitValue (c : CodePoint) : Nat := c.val - 48

end CodePoint

/-- A sequence of code points. -/
abbrev Text := List CodePoint

namespace Text

instance : LawfulBEq Text := inferInstance

def ofString (s : String) : Text := s.toList.map CodePoint.ofChar

instance : Coe String Text := ⟨ofString⟩

/-- The decimal digits of a number. -/
def ofNat (n : Nat) : Text := (Nat.toDigits 10 n).map CodePoint.ofChar

/-- The decimal digits of a number, after a minus sign if it is negative. -/
def ofInt (i : Int) : Text :=
  match i with
  | .ofNat n => ofNat n
  | .negSucc n => CodePoint.ofChar '-' :: ofNat (n + 1)

/-- The number in decimal, with zeros in front up to a width. -/
def padded (width n : Nat) : Text :=
  let digits := ofNat n
  List.replicate (width - digits.length) (CodePoint.ofChar '0') ++ digits

/-- The number in hexadecimal, small letters, with zeros in front up to a width. -/
def paddedHex (width n : Nat) : Text :=
  let digits := (Nat.toDigits 16 n).map CodePoint.ofChar
  List.replicate (width - digits.length) (CodePoint.ofChar '0') ++ digits

/-- Spaces in front, up to a width. -/
def rightAligned (width : Nat) (t : Text) : Text :=
  List.replicate (width - t.length) (CodePoint.ofChar ' ') ++ t

/-- Spaces behind, up to a width. -/
def leftAligned (width : Nat) (t : Text) : Text :=
  t ++ List.replicate (width - t.length) (CodePoint.ofChar ' ')

/-- The line feed, the only code point that ends a line of output. -/
def newline : CodePoint := CodePoint.ofChar '\n'

/-- The pieces between the occurrences of a separator. There is always one piece more than
there are separators. -/
def splitOn (sep : CodePoint) : Text → List Text
  | [] => [[]]
  | c :: rest =>
    if c = sep then [] :: splitOn sep rest
    else
      match splitOn sep rest with
      | [] => [[c]]
      | piece :: pieces => (c :: piece) :: pieces

def lines (t : Text) : List Text := splitOn newline t

/-- The pieces with a separator between neighbours. -/
def joinWith (sep : Text) : List Text → Text
  | [] => []
  | [piece] => piece
  | piece :: pieces => piece ++ sep ++ joinWith sep pieces

/-- One text out of lines. -/
def unlines (ls : List Text) : Text := joinWith [newline] ls

/-- Every occurrence of one code point becomes a text. -/
def replace (c : CodePoint) (new : Text) (t : Text) : Text :=
  t.flatMap fun x => if x = c then new else [x]

/-- Whether the first text is a contiguous part of the second. -/
def occursIn (part : Text) : Text → Bool
  | [] => part.isEmpty
  | c :: rest => part.isPrefixOf (c :: rest) || occursIn part rest

/-- Order by code points; a text comes before its extensions. -/
def le : Text → Text → Bool
  | [], _ => true
  | _ :: _, [] => false
  | a :: as, b :: bs => a.val < b.val || (a.val == b.val && le as bs)

/-- Ascending order by code points. -/
def sort (ts : List Text) : List Text := ts.mergeSort le

theorem splitOn_ne_nil (sep : CodePoint) (t : Text) : splitOn sep t ≠ [] := by
  cases t with
  | nil => simp [splitOn]
  | cons c rest =>
    simp only [splitOn]
    split
    · simp
    · split <;> simp

theorem joinWith_splitOn (sep : CodePoint) (t : Text) : joinWith [sep] (splitOn sep t) = t := by
  induction t with
  | nil => rfl
  | cons c rest ih =>
    have hne := splitOn_ne_nil sep rest
    simp only [splitOn]
    split
    · next h =>
      subst h
      cases hs : splitOn c rest with
      | nil => exact absurd hs hne
      | cons piece pieces => rw [hs] at ih; simp [joinWith, ih]
    · cases hs : splitOn sep rest with
      | nil => exact absurd hs hne
      | cons piece pieces =>
        rw [hs] at ih
        cases pieces <;> simp_all [joinWith]

section
variable {sep : CodePoint} {t : Text}

theorem splitOn_of_not_mem (h : sep ∉ t) : splitOn sep t = [t] := by
  induction t with
  | nil => rfl
  | cons c rest ih =>
    rw [List.mem_cons, not_or] at h
    rw [splitOn, if_neg (Ne.symm h.1), ih h.2]

/-- A separator ends a piece. -/
theorem splitOn_append_cons (t rest : Text) :
    splitOn sep (t ++ sep :: rest) = splitOn sep t ++ splitOn sep rest := by
  induction t with
  | nil => exact if_pos rfl
  | cons c t ih =>
    rw [List.cons_append, splitOn, splitOn, ih]
    split
    · rfl
    · cases hpieces : splitOn sep t with
      | nil => exact absurd hpieces (splitOn_ne_nil sep t)
      | cons piece pieces => rfl

/-- The pieces of a joined text are those of its parts. -/
theorem splitOn_joinWith_flatMap {parts : List Text} (hne : parts ≠ []) :
    splitOn sep (joinWith [sep] parts) = parts.flatMap (splitOn sep) := by
  induction parts with
  | nil => exact absurd rfl hne
  | cons first rest ih =>
    cases rest with
    | nil => exact (List.append_nil _).symm
    | cons next more =>
      have hjoin : joinWith [sep] (first :: next :: more) =
          first ++ sep :: joinWith [sep] (next :: more) := List.append_assoc first [sep] _
      rw [hjoin, splitOn_append_cons, ih (List.cons_ne_nil next more)]
      rfl

/-- Pieces without the separator are what a joined text is split into. -/
theorem splitOn_joinWith {pieces : List Text} (hne : pieces ≠ [])
    (h : ∀ piece ∈ pieces, sep ∉ piece) : splitOn sep (joinWith [sep] pieces) = pieces := by
  rw [splitOn_joinWith_flatMap hne, List.flatMap_def,
    List.map_congr_left fun piece hp => splitOn_of_not_mem (h piece hp)]
  exact (List.flatMap_def ▸ List.flatMap_singleton' pieces)

theorem not_mem_replace {new : Text} (h : sep ∉ new) (t : Text) : sep ∉ replace sep new t := by
  rw [replace, List.mem_flatMap]
  rintro ⟨c, -, hc⟩
  split at hc
  · exact h hc
  · next hne => exact hne (List.mem_singleton.1 hc).symm

/-- A text without a code point that begins a longer one ends before that code point. -/
theorem prefix_of_not_mem {start rest : Text} (h : start <+: t ++ sep :: rest) (hsep : sep ∉ start) :
    start <+: t := by
  induction start generalizing t with
  | nil => exact List.nil_prefix
  | cons m start ih =>
    rw [List.mem_cons, not_or] at hsep
    cases t with
    | nil => exact absurd (List.cons_prefix_cons.1 h).1 (Ne.symm hsep.1)
    | cons k t =>
      obtain ⟨hfirst, hrest⟩ := List.cons_prefix_cons.1 h
      exact List.cons_prefix_cons.2 ⟨hfirst, ih hrest hsep.2⟩

end

/-! ### The order by code points -/

theorem le_total (a b : Text) : (le a b || le b a) = true := by
  induction a generalizing b with
  | nil => rfl
  | cons x a ih =>
    cases b with
    | nil => rfl
    | cons y b =>
      have := ih b
      simp only [le]
      grind

theorem le_trans (a b c : Text) (hab : le a b = true) (hbc : le b c = true) : le a c = true := by
  induction a generalizing b c with
  | nil => rfl
  | cons x a ih =>
    cases b with
    | nil => cases hab
    | cons y b =>
      cases c with
      | nil => cases hbc
      | cons z c =>
        have := ih b c
        simp only [le] at hab hbc ⊢
        grind

theorem le_antisymm (a b : Text) (hab : le a b = true) (hba : le b a = true) : a = b := by
  induction a generalizing b with
  | nil =>
    cases b with
    | nil => rfl
    | cons y b => cases hba
  | cons x a ih =>
    cases b with
    | nil => cases hab
    | cons y b =>
      simp only [le] at hab hba
      have hfirst : x = y := CodePoint.ext (by grind)
      rw [hfirst, ih b (by grind) (by grind)]

theorem pairwise_sort (ts : List Text) : (sort ts).Pairwise fun a b => le a b = true :=
  List.pairwise_mergeSort le_trans le_total ts

theorem mem_sort {t : Text} {ts : List Text} : t ∈ sort ts ↔ t ∈ ts := List.mem_mergeSort

theorem nodup_sort {ts : List Text} (h : ts.Nodup) : (sort ts).Nodup :=
  (List.mergeSort_perm ts le).nodup_iff.2 h

end Text

end VaultConsole
