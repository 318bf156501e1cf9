import Mathlib.Data.List.DropRight
import Mathlib.Data.List.TakeDrop
import VaultConsole.Line.Flags

/-!
# How flags are read

The scan of a line goes from left to right. A flag ends where its value does, and the scan goes on from
there; so what is read of a text does not depend on what follows it, if the text ends with a blank and
leaves no quote of a value open.

* `Text.EndsBlank`, `Text.EndsSolid`, `Text.Pauses`: texts that end with a blank, or with none; texts
  that begin with one.
* `Flags.tokens`: the flags of a text, read from where a flag can begin or not.
* `Flags.Closed`: no quoted value of a flag is still open at the end of a text.
* `Flags.tokens_append`: **a text and a flag after it are read apart.**
* `Flags.flag?_quoted`: a flag with a quoted value.
-/

namespace VaultConsole

/-! ## Blanks -/

/-- A blank ends a name. -/
theorem CodePoint.isWord_of_isBlank {c : CodePoint} (h : c.isBlank = true) : c.isWord = false := by
  have hranges : ∀ r ∈ Text.blankRanges, ∀ n ∈ List.range' r.1 (r.2 + 1 - r.1),
      Text.inRanges Text.wordRanges n = false := by
    decide +kernel
  obtain ⟨r, hr, hfirst, hlast⟩ := Text.mem_of_inRanges h
  refine hranges r hr c.val (List.mem_range'.2 ⟨c.val - r.1, ?_, ?_⟩)
  · omega
  · omega

namespace Text

/-- The last code point of a text is a blank. -/
def EndsBlank (t : Text) : Prop := ∃ c ∈ t.getLast?, c.isBlank = true

theorem EndsBlank.ne_nil {t : Text} (h : t.EndsBlank) : t ≠ [] := by
  rintro rfl
  obtain ⟨c, hc, -⟩ := h
  cases hc

theorem endsBlank_append_iff {t u : Text} (hu : u ≠ []) : EndsBlank (t ++ u) ↔ EndsBlank u := by
  unfold EndsBlank
  rw [List.getLast?_append, List.getLast?_eq_some_getLast hu, Option.some_or]

theorem EndsBlank.of_suffix {t u : Text} (h : t.EndsBlank) (hsuffix : u <:+ t) (hu : u ≠ []) :
    u.EndsBlank := by
  obtain ⟨front, rfl⟩ := hsuffix
  exact (endsBlank_append_iff hu).1 h

/-- After a code point that is no blank there is another one. -/
theorem EndsBlank.of_cons {c : CodePoint} {t : Text} (h : EndsBlank (c :: t))
    (hc : c.isBlank = false) : t.EndsBlank := by
  refine h.of_suffix (List.suffix_cons c t) ?_
  rintro rfl
  obtain ⟨b, hb, hblank⟩ := h
  cases hb
  rw [List.getLast_singleton, hc] at hblank
  cases hblank

section
variable {p : CodePoint → Bool} {t : Text}

/-- What no blank belongs to ends within a text that ends with one. -/
theorem EndsBlank.dropWhile (h : t.EndsBlank) (hp : ∀ c : CodePoint, c.isBlank = true → p c = false) :
    EndsBlank (t.dropWhile p) := by
  refine h.of_suffix (List.dropWhile_suffix p) fun hnil => ?_
  obtain ⟨c, hc, hblank⟩ := h
  have hpassed := List.dropWhile_eq_nil_iff.1 hnil c (List.mem_of_getLast? hc)
  rw [hp c hblank] at hpassed
  cases hpassed

/-- What ends within a text does not depend on what follows. -/
theorem cut_append (h : t.dropWhile p ≠ []) (u : Text) :
    (t ++ u).takeWhile p = t.takeWhile p ∧ (t ++ u).dropWhile p = t.dropWhile p ++ u := by
  have hlength : (t.takeWhile p).length ≠ t.length := by
    intro hall
    have hsplit := congrArg List.length (List.takeWhile_append_dropWhile (p := p) (l := t))
    rw [List.length_append] at hsplit
    have hpos := List.length_pos_iff.2 h
    omega
  rw [List.takeWhile_append, if_neg hlength, List.dropWhile_append, if_neg (by simpa using h)]
  exact ⟨rfl, rfl⟩

end

/-- Blanks in front are those of the front, if that is not blank. -/
theorem stripLeft_append {t : Text} (h : t.stripLeft ≠ []) (u : Text) :
    stripLeft (t ++ u) = t.stripLeft ++ u := (cut_append h u).2

theorem stripRight_cons {c : CodePoint} (hc : c.isBlank = false) (t : Text) :
    stripRight (c :: t) = c :: t.stripRight := by
  have hend : (t.reverse ++ [c]).dropWhile CodePoint.isBlank =
      t.reverse.dropWhile CodePoint.isBlank ++ [c] := by
    rw [List.dropWhile_append]
    split
    · next hnil =>
      rw [List.isEmpty_iff] at hnil
      rw [hnil, List.dropWhile_cons_of_neg (by simp [hc])]
      rfl
    · rfl
  rw [stripRight, stripRight, List.reverse_cons, hend, List.reverse_append]
  rfl

/-- Blanks at the end are those of the end, if that is not blank. -/
theorem stripRight_append {u : Text} (h : u.stripRight ≠ []) (t : Text) :
    stripRight (t ++ u) = t ++ u.stripRight := by
  have hne : u.reverse.dropWhile CodePoint.isBlank ≠ [] := by
    intro hnil
    rw [stripRight, hnil] at h
    exact h rfl
  rw [stripRight, List.reverse_append, (cut_append hne _).2, List.reverse_append, List.reverse_reverse]
  rfl

/-- The last code point of a text is no blank. -/
def EndsSolid (t : Text) : Prop := ∃ c ∈ t.getLast?, c.isBlank = false

theorem EndsSolid.append {t : Text} (h : EndsSolid t) (front : Text) : EndsSolid (front ++ t) := by
  obtain ⟨c, hc, hsolid⟩ := h
  refine ⟨c, ?_, hsolid⟩
  rw [List.getLast?_append, Option.mem_def.1 hc]
  rfl

theorem endsSolid_of_forall {t : Text} (hne : t ≠ []) (h : ∀ c ∈ t, c.isBlank = false) : EndsSolid t :=
  ⟨t.getLast hne, List.getLast?_eq_some_getLast hne, h _ (List.getLast_mem hne)⟩

theorem EndsSolid.not_endsBlank {t : Text} (h : EndsSolid t) : ¬ EndsBlank t := by
  rintro ⟨c, hc, hblank⟩
  obtain ⟨d, hd, hsolid⟩ := h
  obtain rfl := Option.mem_unique hc hd
  rw [hblank] at hsolid
  cases hsolid

/-- Blanks behind a text are the ones that it loses, if it ends with none itself. -/
theorem EndsSolid.stripRight {t : Text} (h : EndsSolid t) {blanks : Text}
    (hblank : ∀ c ∈ blanks, c.isBlank = true) : Text.stripRight (t ++ blanks) = t := by
  obtain ⟨c, hc, hsolid⟩ := h
  obtain ⟨front, rfl⟩ := List.getLast?_eq_some_iff.1 hc
  have hblanks : Text.stripRight blanks = [] := by
    rw [Text.stripRight, List.reverse_eq_nil_iff, List.dropWhile_eq_nil_iff]
    exact fun d hd => hblank d (List.mem_reverse.1 hd)
  have hend : Text.stripRight (c :: blanks) = [c] := by rw [stripRight_cons hsolid, hblanks]
  have hne : Text.stripRight (c :: blanks) ≠ [] := by
    rw [hend]
    exact List.cons_ne_nil c []
  rw [List.append_assoc, List.singleton_append, stripRight_append hne, hend]

/-- A text is at its end or goes on with a blank. -/
def Pauses (t : Text) : Prop := ∀ c ∈ t.head?, c.isBlank = true

theorem pauses_nil : Pauses [] := nofun

end Text

namespace Flags

open Text (EndsBlank doubleQuote)

/-! ## One flag -/

/-- After blanks a quote begins. -/
def OpensQuote (t : Text) : Prop :=
  ∃ gap rest : Text, gap ≠ [] ∧ (∀ c ∈ gap, c.isBlank = true) ∧ t = gap ++ doubleQuote :: rest

/-- A value at the beginning of a text. -/
def valueAt? (t : Text) : Option (Text × Text) := (quotedValue? t).or (bareValue? t)

theorem value?_cons {c : CodePoint} (hc : c.isBlank = true) (t : Text) :
    value? (c :: t) = valueAt? (Text.stripLeft (c :: t)) := if_pos hc

/-- A quoted value ends at the next quote. -/
theorem valueAt?_quote (t : Text) :
    valueAt? (doubleQuote :: t) =
      match t.dropWhile (· ≠ doubleQuote) with
      | [] => none
      | _ :: tail => some (t.takeWhile (· ≠ doubleQuote), tail) := by
  have hbare : bareValue? (doubleQuote :: t) = none := rfl
  rw [valueAt?, hbare, Option.or_none, quotedValue?, if_pos rfl, List.span_eq_takeWhile_dropWhile]
  cases t.dropWhile (· ≠ doubleQuote) <;> rfl

/-- What is quoted is read up to the quote that ends it. -/
theorem valueAt?_quoted {v : Text} (hv : doubleQuote ∉ v) (t : Text) :
    valueAt? (doubleQuote :: (v ++ doubleQuote :: t)) = some (v, t) := by
  have hall : ∀ c ∈ v, decide (c ≠ doubleQuote) = true := by
    intro c hc
    refine decide_eq_true ?_
    rintro rfl
    exact hv hc
  rw [valueAt?_quote, List.dropWhile_append_of_pos hall, List.takeWhile_append_of_pos hall]
  simp

/-- Any other value ends before the next blank. -/
theorem valueAt?_bare {c : CodePoint} (hc : c ≠ doubleQuote) (t : Text) :
    valueAt? (c :: t) =
      if c.isBlank = true ∨ mark.isPrefixOf (c :: t) = true then none
      else some ((c :: t).takeWhile (!·.isBlank), (c :: t).dropWhile (!·.isBlank)) := by
  have hquoted : quotedValue? (c :: t) = none := if_neg hc
  rw [valueAt?, hquoted, Option.none_or, bareValue?, Text.firstWord, List.span_eq_takeWhile_dropWhile]
  simp only [hc, false_or]

/-- A flag begins with no blank. -/
theorem stripLeft_append_of_mark {u : Text} (hu : mark <+: u) (t : Text) :
    Text.stripLeft (t ++ u) = Text.stripLeft t ++ u := by
  obtain ⟨rest, rfl⟩ := hu
  rw [Text.stripLeft, List.dropWhile_append]
  split
  · next hnil =>
    rw [List.isEmpty_iff] at hnil
    rw [Text.stripLeft, hnil]
    rfl
  · rfl

/-- A flag is no value. -/
theorem valueAt?_of_mark {u : Text} (hu : mark <+: u) : valueAt? u = none := by
  obtain ⟨rest, rfl⟩ := hu
  rfl

/-- What a value leaves is the end of the text. -/
theorem suffix_of_valueAt? {t v tail : Text} (h : valueAt? t = some (v, tail)) : tail <:+ t := by
  match t with
  | [] => cases h
  | c :: t =>
    by_cases hc : c = doubleQuote
    · have hdrop : t.dropWhile (· ≠ doubleQuote) <:+ t := List.dropWhile_suffix _
      rw [hc, valueAt?_quote] at h
      split at h
      · cases h
      · next hsplit =>
        cases h
        rw [hsplit] at hdrop
        exact ((List.suffix_cons _ _).trans hdrop).trans (List.suffix_cons _ _)
    · rw [valueAt?_bare hc] at h
      split at h
      · cases h
      · cases h
        exact List.dropWhile_suffix _

theorem suffix_of_value? {t v tail : Text} (h : value? t = some (v, tail)) : tail <:+ t := by
  match t with
  | [] => cases h
  | c :: t =>
    by_cases hc : c.isBlank = true
    · rw [value?_cons hc] at h
      exact (suffix_of_valueAt? h).trans (List.dropWhile_suffix _)
    · rw [value?, if_neg hc] at h
      cases h

/-- Two hyphens do not lie across the end of a text that ends with a blank. -/
theorem isPrefixOf_mark_append {t : Text} (ht : t.EndsBlank) (u : Text) :
    mark.isPrefixOf (t ++ u) = mark.isPrefixOf t := by
  match t with
  | [] => exact absurd rfl ht.ne_nil
  | [c] =>
    have hc : CodePoint.ofChar '-' ≠ c := by
      rintro rfl
      exact (EndsBlank.of_cons ht (by decide)).ne_nil rfl
    simp [mark, Text.ofString, List.isPrefixOf, hc]
  | c :: d :: rest => rfl

/-- What is found first in a text, with the rest of the text and what follows it. -/
def before {α : Type} (u : Text) (found : α × Text) : α × Text := (found.1, found.2 ++ u)

section
variable {t u : Text} (ht : t.EndsBlank)
include ht

/-- A value that does not open a quote only does not reach beyond a text that ends with a blank. -/
theorem valueAt?_append (hopen : t.head? = some doubleQuote → valueAt? t ≠ none) :
    valueAt? (t ++ u) = (valueAt? t).map (before u) ∧
      ∀ v tail, valueAt? t = some (v, tail) → tail.EndsBlank := by
  match t with
  | [] => exact absurd rfl ht.ne_nil
  | c :: t =>
    by_cases hc : c = doubleQuote
    · subst hc
      have hrest : EndsBlank t := ht.of_cons (by decide)
      have hclosed := hopen rfl
      rw [valueAt?_quote] at hclosed ⊢
      obtain ⟨d, tail, hsplit⟩ : ∃ d tail, t.dropWhile (· ≠ doubleQuote) = d :: tail := by
        cases hdrop : t.dropWhile (· ≠ doubleQuote) with
        | nil =>
          rw [hdrop] at hclosed
          exact absurd rfl hclosed
        | cons d tail => exact ⟨d, tail, rfl⟩
      have hne : t.dropWhile (· ≠ doubleQuote) ≠ [] := by
        rw [hsplit]
        exact List.cons_ne_nil _ _
      obtain ⟨htake, hdrop⟩ := Text.cut_append hne u
      -- what is behind the quote still ends with the blank
      have hquote : d = doubleQuote := by
        have hstops := List.head?_dropWhile_not (· ≠ doubleQuote) t
        rw [hsplit] at hstops
        simpa using hstops
      have htail : EndsBlank (d :: tail) :=
        hrest.of_suffix (hsplit ▸ List.dropWhile_suffix _) (List.cons_ne_nil _ _)
      rw [List.cons_append, valueAt?_quote, htake, hdrop, hsplit]
      refine ⟨rfl, ?_⟩
      rintro v _ ⟨⟩
      exact htail.of_cons (by rw [hquote]; decide)
    · rw [valueAt?_bare hc, List.cons_append, valueAt?_bare hc, ← List.cons_append,
        isPrefixOf_mark_append ht]
      split
      · exact ⟨rfl, nofun⟩
      · have hends : EndsBlank ((c :: t).dropWhile (!·.isBlank)) :=
          ht.dropWhile fun c hblank => by simp [hblank]
        obtain ⟨htake, hdrop⟩ := Text.cut_append hends.ne_nil u
        rw [htake, hdrop]
        refine ⟨rfl, ?_⟩
        rintro v _ ⟨⟩
        exact hends

/-- The same for a value after blanks, and no flag after the text is taken for a value. -/
theorem value?_append (hu : mark <+: u) (hopen : value? t = none → ¬ OpensQuote t) :
    value? (t ++ u) = (value? t).map (before u) ∧
      ∀ v tail, value? t = some (v, tail) → tail.EndsBlank := by
  match t with
  | [] => exact absurd rfl ht.ne_nil
  | c :: t =>
    by_cases hc : c.isBlank = true
    · have hsplit := List.takeWhile_append_dropWhile (p := CodePoint.isBlank) (l := c :: t)
      have hgap : ∀ d ∈ (c :: t).takeWhile CodePoint.isBlank, d.isBlank = true :=
        fun d hd => List.mem_takeWhile_imp hd
      rw [value?_cons hc] at hopen ⊢
      rw [List.cons_append, value?_cons hc, ← List.cons_append]
      cases hrest : Text.stripLeft (c :: t) with
      | nil =>
        -- the text is blank throughout, so the scan comes to the flag
        rw [stripLeft_append_of_mark hu, hrest, List.nil_append, valueAt?_of_mark hu]
        exact ⟨rfl, nofun⟩
      | cons d y =>
        have hne : Text.stripLeft (c :: t) ≠ [] := by simp [hrest]
        have hends : EndsBlank (Text.stripLeft (c :: t)) :=
          ht.of_suffix (List.dropWhile_suffix _) hne
        rw [Text.stripLeft_append hne, ← hrest]
        refine valueAt?_append hends fun hhead hnone => hopen hnone ?_
        refine ⟨(c :: t).takeWhile CodePoint.isBlank, y, ?_, hgap, ?_⟩
        · simp [hc]
        · rw [hrest] at hhead
          cases hhead
          exact hsplit.symm.trans (congrArg _ hrest)
    · have hnone : ∀ t, value? (c :: t) = none := fun t => by rw [value?, if_neg hc]
      rw [List.cons_append, hnone, hnone]
      exact ⟨rfl, nofun⟩

end

/-- A flag: two hyphens, a name, and the value that follows the name, if there is one. -/
theorem flag?_eq (t : Text) :
    flag? t =
      if mark.isPrefixOf t = true ∧ (t.drop mark.length).takeWhile CodePoint.isWord ≠ [] then
        let name := (t.drop mark.length).takeWhile CodePoint.isWord
        let rest := (t.drop mark.length).dropWhile CodePoint.isWord
        match value? rest with
        | some (v, tail) => some (⟨name, some v⟩, tail)
        | none => some (⟨name, none⟩, rest)
      else none := by
  unfold flag?
  rw [List.span_eq_takeWhile_dropWhile]
  cases mark.isPrefixOf t with
  | false => simp
  | true =>
    cases (t.drop mark.length).takeWhile CodePoint.isWord with
    | nil => simp
    | cons c name =>
      refine (if_pos rfl).trans (Eq.trans ?_ (if_pos ⟨rfl, List.cons_ne_nil c name⟩).symm)
      cases value? ((t.drop mark.length).dropWhile CodePoint.isWord) <;> rfl

/-- A flag is at least as long as its two hyphens. -/
theorem suffix_of_flag? {t : Text} {token : Token} {tail : Text} (h : flag? t = some (token, tail)) :
    tail <:+ t ∧ tail.length < t.length := by
  rw [flag?_eq] at h
  split at h
  · next hflag =>
    have hmark : mark <+: t := List.isPrefixOf_iff_prefix.1 hflag.1
    have hdrop : (t.drop mark.length).dropWhile CodePoint.isWord <:+ t.drop mark.length :=
      List.dropWhile_suffix _
    have htail : tail <:+ t.drop mark.length := by
      simp only at h
      split at h
      · next v tail' hvalue =>
        cases h
        exact (suffix_of_value? hvalue).trans hdrop
      · cases h
        exact hdrop
    refine ⟨htail.trans (List.drop_suffix _ _), ?_⟩
    have hlength := htail.length_le
    have hlong := hmark.length_le
    rw [List.length_drop] at hlength
    have htwo : mark.length = 2 := rfl
    omega
  · cases h

/-- A flag in a text that ends with a blank does not reach beyond it, if no quote that it opens does. -/
theorem flag?_append {t u : Text} (ht : t.EndsBlank) (hu : mark <+: u)
    (hopen : ∀ name tail, flag? t = some (⟨name, none⟩, tail) → ¬ OpensQuote tail) :
    flag? (t ++ u) = (flag? t).map (before u) ∧
      ∀ token tail, flag? t = some (token, tail) → tail.EndsBlank := by
  rw [flag?_eq] at hopen
  rw [flag?_eq, flag?_eq t, isPrefixOf_mark_append ht]
  cases hmark : mark.isPrefixOf t with
  | false => exact ⟨by simp, by simp⟩
  | true =>
    -- the blank at the end is no part of the hyphens, and none of the name
    obtain ⟨body, rfl⟩ := List.isPrefixOf_iff_prefix.1 hmark
    have hbody : EndsBlank body := by
      refine ht.of_suffix (List.suffix_append _ _) ?_
      rintro rfl
      rw [List.append_nil] at ht
      exact ((EndsBlank.of_cons ht (by decide)).of_cons (by decide)).ne_nil rfl
    have hrest : EndsBlank (body.dropWhile CodePoint.isWord) :=
      hbody.dropWhile fun c hc => CodePoint.isWord_of_isBlank hc
    obtain ⟨htake, hdrop⟩ := Text.cut_append hrest.ne_nil u
    rw [List.append_assoc, List.drop_left, List.drop_left, htake, hdrop]
    rw [List.drop_left] at hopen
    by_cases hname : body.takeWhile CodePoint.isWord = []
    · simp [hname]
    · rw [hmark] at hopen
      simp only [hname, ne_eq, not_false_eq_true, and_self, if_true] at hopen ⊢
      obtain ⟨hvalue, hends⟩ := value?_append hrest hu fun hnone => by
        rw [hnone] at hopen
        exact hopen _ _ rfl
      rw [hvalue]
      cases hfound : value? (body.dropWhile CodePoint.isWord) with
      | none =>
        refine ⟨rfl, ?_⟩
        rintro _ _ ⟨⟩
        exact hrest
      | some found =>
        refine ⟨rfl, ?_⟩
        rintro _ _ ⟨⟩
        exact hends found.1 found.2 hfound

/-- A flag with a quoted value. -/
theorem flag?_quoted {name gap v : Text} (hname : name ≠ []) (hword : ∀ c ∈ name, c.isWord = true)
    (hgap : gap ≠ []) (hblank : ∀ c ∈ gap, c.isBlank = true) (hv : doubleQuote ∉ v) (tail : Text) :
    flag? (mark ++ (name ++ (gap ++ doubleQuote :: (v ++ doubleQuote :: tail)))) =
      some (⟨name, some v⟩, tail) := by
  obtain ⟨c, blanks, rfl⟩ := List.exists_cons_of_ne_nil hgap
  have hc : c.isBlank = true := hblank c List.mem_cons_self
  have hstops : c.isWord = false := CodePoint.isWord_of_isBlank hc
  have hstrip : Text.stripLeft (c :: blanks ++ doubleQuote :: (v ++ doubleQuote :: tail)) =
      doubleQuote :: (v ++ doubleQuote :: tail) := by
    rw [Text.stripLeft, List.dropWhile_append_of_pos hblank]
    rfl
  rw [flag?_eq, List.drop_left, List.takeWhile_append_of_pos hword,
    List.dropWhile_append_of_pos hword]
  have hmark : mark.isPrefixOf (mark ++ (name ++ (c :: blanks ++ doubleQuote ::
      (v ++ doubleQuote :: tail)))) = true :=
    List.isPrefixOf_iff_prefix.2 (List.prefix_append _ _)
  have hbegins : (c :: blanks ++ doubleQuote :: (v ++ doubleQuote :: tail)).takeWhile
      CodePoint.isWord = [] := by simp [hstops]
  have hends : (c :: blanks ++ doubleQuote :: (v ++ doubleQuote :: tail)).dropWhile
      CodePoint.isWord = c :: blanks ++ doubleQuote :: (v ++ doubleQuote :: tail) := by simp [hstops]
  rw [hmark, hbegins, hends, List.append_nil, if_pos ⟨rfl, hname⟩]
  simp only
  rw [List.cons_append, value?_cons hc, ← List.cons_append, hstrip, valueAt?_quoted hv]

/-! ## All flags -/

theorem scanFrom_cons (fuel : Nat) (free : Bool) (c : CodePoint) (rest : Text) :
    scanFrom (fuel + 1) free (c :: rest) =
      match if free then flag? (c :: rest) else none with
      | some (token, tail) => token :: scanFrom fuel false tail
      | none => scanFrom fuel c.isBlank rest := rfl

/-- As many steps as a text is long are enough. -/
theorem scanFrom_eq_scanFrom {fuel fuel' : Nat} {free : Bool} {t : Text} (h : t.length ≤ fuel)
    (h' : t.length ≤ fuel') : scanFrom fuel free t = scanFrom fuel' free t := by
  induction fuel generalizing fuel' free t with
  | zero =>
    rw [List.eq_nil_of_length_eq_zero (Nat.le_zero.1 h)]
    cases fuel' <;> rfl
  | succ fuel ih =>
    match t, fuel' with
    | [], 0 => rfl
    | [], fuel' + 1 => rfl
    | c :: rest, 0 => cases h'
    | c :: rest, fuel' + 1 =>
      rw [List.length_cons] at h h'
      rw [scanFrom_cons, scanFrom_cons]
      cases hflag : (if free then flag? (c :: rest) else none) with
      | none => exact ih (by omega) (by omega)
      | some found =>
        obtain ⟨token, tail⟩ := found
        have hfound : flag? (c :: rest) = some (token, tail) := by
          cases free with
          | true => exact hflag
          | false => cases hflag
        have hshorter := (suffix_of_flag? hfound).2
        rw [List.length_cons] at hshorter
        exact congrArg (token :: ·) (ih (by omega) (by omega))

/-- The flags of a text in order; `free` tells whether one can begin with it. -/
def tokens (free : Bool) (t : Text) : List Token := scanFrom t.length free t

theorem tokens_skip {free : Bool} {c : CodePoint} {rest : Text}
    (h : (if free then flag? (c :: rest) else none) = none) :
    tokens free (c :: rest) = tokens c.isBlank rest := by
  rw [tokens, List.length_cons, scanFrom_cons, h]
  rfl

theorem tokens_flag {t tail : Text} {token : Token} (h : flag? t = some (token, tail)) :
    tokens true t = token :: tokens false tail := by
  match t with
  | [] => cases h
  | c :: rest =>
    have hshorter := (suffix_of_flag? h).2
    rw [List.length_cons] at hshorter
    rw [tokens, List.length_cons, scanFrom_cons, if_pos rfl, h]
    exact congrArg (token :: ·) (scanFrom_eq_scanFrom (by omega) le_rfl)

/-- Along the scan of a text every quote that opens a value is closed. -/
inductive Closed : (free : Bool) → Text → Prop
  | nil (free : Bool) : Closed free []
  | skip {free : Bool} {c : CodePoint} {rest : Text}
      (none : (if free then flag? (c :: rest) else .none) = .none) (closed : Closed c.isBlank rest) :
      Closed free (c :: rest)
  | flag {t tail : Text} {token : Token} (some : flag? t = .some (token, tail))
      (ends : token.value = none → ¬ OpensQuote tail) (closed : Closed false tail) : Closed true t

/-- Blanks in front of a text make no difference. -/
theorem Closed.stripLeft {t : Text} (h : Closed true t) : Closed true (Text.stripLeft t) := by
  induction t with
  | nil => exact h
  | cons c rest ih =>
    by_cases hc : c.isBlank = true
    · have hstrip : Text.stripLeft (c :: rest) = Text.stripLeft rest := List.dropWhile_cons_of_pos hc
      rw [hstrip]
      cases h with
      | skip _ closed =>
        rw [hc] at closed
        exact ih closed
      | flag hflag _ _ =>
        -- a flag does not begin with a blank
        have hmark : mark.isPrefixOf (c :: rest) = false := by
          have hne : CodePoint.ofChar '-' ≠ c := by
            rintro rfl
            exact absurd hc (by decide)
          simp [mark, Text.ofString, List.isPrefixOf, hne]
        rw [flag?_eq, hmark] at hflag
        simp at hflag
    · have hstrip : Text.stripLeft (c :: rest) = c :: rest := List.dropWhile_cons_of_neg hc
      rw [hstrip]
      exact h

/-- A text without quotes leaves none open. -/
theorem closed_of_not_mem {t : Text} (h : doubleQuote ∉ t) (free : Bool) : Closed free t := by
  induction hlength : t.length using Nat.strong_induction_on generalizing t free with
  | _ n ih =>
    match t with
    | [] => exact .nil free
    | c :: rest =>
      subst hlength
      cases hflag : (if free then flag? (c :: rest) else none) with
      | none =>
        have hrest : doubleQuote ∉ rest := fun hmem => h (List.mem_cons_of_mem c hmem)
        exact .skip hflag (ih _ (Nat.lt_succ_self _) hrest _ rfl)
      | some found =>
        obtain ⟨token, tail⟩ := found
        cases free with
        | false => cases hflag
        | true =>
          rw [if_pos rfl] at hflag
          obtain ⟨hsuffix, hshorter⟩ := suffix_of_flag? hflag
          have htail : doubleQuote ∉ tail := fun hmem => h (hsuffix.subset hmem)
          refine .flag hflag ?_ (ih _ hshorter htail false rfl)
          rintro - ⟨gap, beyond, -, -, rfl⟩
          exact htail (by simp)

/-- **A text and a flag after it are read apart**, if the text ends with a blank and leaves no quote
open. -/
theorem tokens_append {free : Bool} {t u : Text} (h : Closed free t)
    (ht : t.EndsBlank ∨ t = [] ∧ free = true) (hu : mark <+: u) :
    tokens free (t ++ u) = tokens free t ++ tokens true u := by
  induction h with
  | nil free =>
    rcases ht with ht | ⟨-, rfl⟩
    · exact absurd rfl ht.ne_nil
    · rfl
  | @skip free c rest hnone closed ih =>
    have hends : EndsBlank (c :: rest) := by
      rcases ht with ht | ⟨hnil, -⟩
      · exact ht
      · cases hnil
    have hrest : rest.EndsBlank ∨ rest = [] ∧ c.isBlank = true := by
      by_cases hnil : rest = []
      · subst hnil
        obtain ⟨b, hb, hblank⟩ := hends
        cases hb
        exact .inr ⟨rfl, hblank⟩
      · exact .inl (hends.of_suffix (List.suffix_cons c rest) hnil)
    have hnone' : (if free then flag? (c :: (rest ++ u)) else none) = none := by
      cases free with
      | false => rfl
      | true =>
        obtain ⟨happend, -⟩ := flag?_append hends hu fun name tail hflag => by
          rw [if_pos rfl] at hnone
          rw [hnone] at hflag
          cases hflag
        rw [if_pos rfl] at hnone ⊢
        rw [← List.cons_append, happend, hnone]
        rfl
    rw [List.cons_append, tokens_skip hnone', tokens_skip hnone, ih hrest]
  | @flag t tail token hsome hends closed ih =>
    have hendsBlank : EndsBlank t := by
      rcases ht with ht | ⟨rfl, -⟩
      · exact ht
      · cases hsome
    obtain ⟨happend, htail⟩ := flag?_append hendsBlank hu fun name rest hflag => by
      rw [hsome] at hflag
      cases hflag
      exact hends rfl
    have hfound : flag? (t ++ u) = some (token, tail ++ u) := by
      rw [happend, hsome]
      rfl
    rw [tokens_flag hfound, tokens_flag hsome, ih (.inl (htail token tail hsome)), List.cons_append]

end Flags

end VaultConsole
