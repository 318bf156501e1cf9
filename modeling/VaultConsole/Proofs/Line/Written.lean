import VaultConsole.Line.Basic
import VaultConsole.Proofs.Line.Given

/-!
# Lines as they are written

A line is written as two words and then flags, each after blanks: a name with a quoted value, with a
bare one, or alone. The scan finds these flags and no others, whatever the quoted values hold and
however wide the blanks are, so reading the line gives back what was written.

* `Written.Gap`, `Written.Word`, `Written.Name`, `Written.Value`: the parts of such a line.
* `Written.Item`, `Written.Item.token`: a flag with the blanks before it, and what it says.
* `Item.flag?_flag`: one flag is read as it was written, whatever flags follow.
* `Written.tokens_texts`: so are the flags one after the other.
* `Written.parse_written`: **reading a line recovers the words and the flags that were written.**
-/

namespace VaultConsole

open Flags (mark Token)
open Text (EndsSolid Pauses doubleQuote)

/-! ## The parts of a line -/

namespace Written

/-- Blanks between two parts of a line. -/
structure Gap where
  text : Text
  ne_nil : text ≠ []
  isBlank : ∀ c ∈ text, c.isBlank = true

/-- A run of code points without a blank that does not begin like a flag. -/
structure Word where
  text : Text
  ne_nil : text ≠ []
  not_isBlank : ∀ c ∈ text, c.isBlank = false
  not_mark : ¬ mark <+: text

/-- The name of a flag. -/
structure Name where
  text : Text
  ne_nil : text ≠ []
  isWord : ∀ c ∈ text, c.isWord = true

/-- What is written after the name of a flag. -/
inductive Value where
  | none
  | quoted (gap : Gap) (text : Text) (closed : doubleQuote ∉ text)
  | bare (gap : Gap) (word : Word) (unquoted : word.text.head? ≠ some doubleQuote)

/-- A flag, with the blanks before it. -/
structure Item where
  gap : Gap
  name : Name
  value : Value

namespace Value

def text : Value → Text
  | none => []
  | quoted gap text _ => gap.text ++ doubleQuote :: (text ++ [doubleQuote])
  | bare gap word _ => gap.text ++ word.text

/-- The value that is meant. -/
def meant : Value → Option Text
  | none => .none
  | quoted _ text _ => some text
  | bare _ word _ => some word.text

end Value

namespace Item

variable (i : Item)

/-- The flag without the blanks before it. -/
def flag : Text := mark ++ (i.name.text ++ i.value.text)

def text : Text := i.gap.text ++ i.flag

/-- What the flag says. -/
def token : Token := ⟨i.name.text, i.value.meant⟩

end Item

/-- Flags one after the other. -/
def texts (items : List Item) : Text := items.flatMap Item.text

end Written

/-- A line of two words and flags, with blanks around it. -/
structure Written where
  before : Text
  verb : Written.Word
  gap : Written.Gap
  subVerb : Written.Word
  items : List Written.Item
  after : Text
  before_isBlank : ∀ c ∈ before, c.isBlank = true
  after_isBlank : ∀ c ∈ after, c.isBlank = true

namespace Written

/-! ## Blanks and words -/

theorem Gap.pauses (gap : Gap) (t : Text) : Pauses (gap.text ++ t) := by
  obtain ⟨c, blanks, hgap⟩ := List.exists_cons_of_ne_nil gap.ne_nil
  intro d hd
  rw [hgap, List.cons_append, List.head?_cons, Option.mem_some_iff] at hd
  refine gap.isBlank d ?_
  rw [hgap, ← hd]
  exact List.mem_cons_self

/-- After blanks stands what does not begin with one. -/
theorem Gap.stripLeft (gap : Gap) (t : Text) : Text.stripLeft (gap.text ++ t) = Text.stripLeft t :=
  List.dropWhile_append_of_pos gap.isBlank

/-- A word ends where the text pauses. -/
theorem Word.span (w : Word) {t : Text} (ht : Pauses t) :
    (w.text ++ t).takeWhile (!·.isBlank) = w.text ∧ (w.text ++ t).dropWhile (!·.isBlank) = t := by
  have hw : ∀ c ∈ w.text, (!c.isBlank) = true := fun c hc => by simp [w.not_isBlank c hc]
  rw [List.takeWhile_append_of_pos hw, List.dropWhile_append_of_pos hw]
  cases t with
  | nil => simp
  | cons c t => simp [ht c rfl]

theorem Word.firstWord (w : Word) {t : Text} (ht : Pauses t) :
    Text.firstWord (w.text ++ t) = (w.text, t) := by
  rw [Text.firstWord, List.span_eq_takeWhile_dropWhile, (w.span ht).1, (w.span ht).2]

theorem Word.stripLeft (w : Word) (t : Text) : Text.stripLeft (w.text ++ t) = w.text ++ t := by
  obtain ⟨c, rest, hw⟩ := List.exists_cons_of_ne_nil w.ne_nil
  have hc : c.isBlank = false := w.not_isBlank c (by rw [hw]; exact List.mem_cons_self)
  rw [hw, List.cons_append, Text.stripLeft, List.dropWhile_cons_of_neg (by simp [hc])]

/-- No flag begins with a word, as a word that is one hyphen is not followed by another. -/
theorem Word.isPrefixOf_mark (w : Word) {t : Text} (ht : Pauses t) :
    mark.isPrefixOf (w.text ++ t) = false := by
  rw [← Bool.not_eq_true, List.isPrefixOf_iff_prefix]
  intro hmark
  match hw : w.text with
  | [] => exact w.ne_nil hw
  | [c] =>
    rw [hw] at hmark
    cases t with
    | nil => simpa [mark, Text.ofString] using hmark.length_le
    | cons d t =>
      obtain ⟨rest, hrest⟩ := hmark
      injection hrest with _ hrest
      injection hrest with hd _
      have hblank : d.isBlank = true := ht d rfl
      rw [← hd] at hblank
      exact absurd hblank (by decide)
  | c :: d :: rest =>
    refine w.not_mark ?_
    rw [hw] at hmark ⊢
    obtain ⟨tail, htail⟩ := hmark
    injection htail with hc htail
    injection htail with hd htail
    exact ⟨rest, by rw [← hc, ← hd]; rfl⟩

/-! ## One flag -/

theorem value?_gap (gap : Gap) {t : Text} (ht : Text.stripLeft t = t) :
    Flags.value? (gap.text ++ t) = Flags.valueAt? t := by
  have hstrip := gap.stripLeft t
  obtain ⟨c, blanks, hgap⟩ := List.exists_cons_of_ne_nil gap.ne_nil
  have hc : c.isBlank = true := gap.isBlank c (by rw [hgap]; exact List.mem_cons_self)
  rw [hgap, List.cons_append] at hstrip ⊢
  rw [Flags.value?_cons hc, hstrip, ht]

/-- A bare value is read up to the next blank. -/
theorem Word.valueAt? (w : Word) (hunquoted : w.text.head? ≠ some doubleQuote) {t : Text}
    (ht : Pauses t) : Flags.valueAt? (w.text ++ t) = some (w.text, t) := by
  have hspan := w.span ht
  have hmark := w.isPrefixOf_mark ht
  obtain ⟨c, rest, hw⟩ := List.exists_cons_of_ne_nil w.ne_nil
  have hc : c.isBlank = false := w.not_isBlank c (by rw [hw]; exact List.mem_cons_self)
  have hquote : c ≠ doubleQuote := by
    rintro rfl
    rw [hw] at hunquoted
    exact hunquoted rfl
  rw [hw, List.cons_append] at hspan hmark ⊢
  rw [Flags.valueAt?_bare hquote, hc, hmark, hspan.1, hspan.2]
  simp

theorem pauses_texts (items : List Item) : Pauses (texts items) := by
  cases items with
  | nil => exact Text.pauses_nil
  | cons i items =>
    rw [texts, List.flatMap_cons, Item.text, List.append_assoc]
    exact i.gap.pauses _

/-- The flags that follow are no value of a flag before them. -/
theorem value?_texts (items : List Item) : Flags.value? (texts items) = none := by
  cases items with
  | nil => rfl
  | cons i items =>
    have hmark : mark <+: i.flag ++ texts items :=
      (List.prefix_append _ _).trans (List.prefix_append _ _)
    have hstrip : Text.stripLeft (i.flag ++ texts items) = i.flag ++ texts items :=
      Flags.stripLeft_append_of_mark hmark []
    have htexts : texts (i :: items) = i.gap.text ++ (i.flag ++ texts items) := by
      simp [texts, Item.text]
    rw [htexts, value?_gap i.gap hstrip, Flags.valueAt?_of_mark hmark]

/-- The value of a flag is read as it was written, and the other flags are left. -/
theorem Value.value?_text (v : Value) (items : List Item) :
    Flags.value? (v.text ++ texts items) = v.meant.map (·, texts items) := by
  cases v with
  | none => exact value?_texts items
  | quoted gap text closed =>
    have hsplit : (quoted gap text closed).text ++ texts items =
        gap.text ++ doubleQuote :: (text ++ doubleQuote :: texts items) := by
      simp [Value.text]
    rw [hsplit, value?_gap gap (List.dropWhile_cons_of_neg (by decide)),
      Flags.valueAt?_quoted closed]
    rfl
  | bare gap word unquoted =>
    rw [Value.text, List.append_assoc, value?_gap gap (word.stripLeft _),
      word.valueAt? unquoted (pauses_texts items)]
    rfl

theorem Value.pauses_text (v : Value) (items : List Item) : Pauses (v.text ++ texts items) := by
  cases v with
  | none => exact pauses_texts items
  | quoted gap =>
    rw [Value.text, List.append_assoc]
    exact gap.pauses _
  | bare gap =>
    rw [Value.text, List.append_assoc]
    exact gap.pauses _

/-- The name of a flag ends where the text pauses. -/
theorem Name.span (n : Name) {t : Text} (ht : Pauses t) :
    (n.text ++ t).takeWhile CodePoint.isWord = n.text ∧
      (n.text ++ t).dropWhile CodePoint.isWord = t := by
  rw [List.takeWhile_append_of_pos n.isWord, List.dropWhile_append_of_pos n.isWord]
  cases t with
  | nil => simp
  | cons c t => simp [CodePoint.isWord_of_isBlank (ht c rfl)]

/-- **One flag is read as it was written**, whatever flags follow. -/
theorem Item.flag?_flag (i : Item) (items : List Item) :
    Flags.flag? (i.flag ++ texts items) = some (i.token, texts items) := by
  have hmark : mark.isPrefixOf (mark ++ (i.name.text ++ (i.value.text ++ texts items))) = true :=
    List.isPrefixOf_iff_prefix.2 (List.prefix_append _ _)
  have hspan := i.name.span (i.value.pauses_text items)
  rw [Item.flag, List.append_assoc, List.append_assoc, Flags.flag?_eq, List.drop_left, hmark, hspan.1,
    hspan.2, if_pos ⟨rfl, i.name.ne_nil⟩, Item.token]
  simp only
  rw [i.value.value?_text items]
  cases hvalue : i.value with
  | none => simp [Value.meant, Value.text]
  | quoted => rfl
  | bare => rfl

/-! ## All flags -/

/-- No flag begins within a word. -/
theorem tokens_solid {w : Text} (hw : ∀ c ∈ w, c.isBlank = false) (t : Text) :
    Flags.tokens false (w ++ t) = Flags.tokens false t := by
  induction w with
  | nil => rfl
  | cons c w ih =>
    have hc : c.isBlank = false := hw c List.mem_cons_self
    rw [List.cons_append, Flags.tokens_skip rfl, hc]
    exact ih fun d hd => hw d (List.mem_cons_of_mem c hd)

/-- No flag begins with a word. -/
theorem Word.tokens (w : Word) {t : Text} (ht : Pauses t) :
    Flags.tokens true (w.text ++ t) = Flags.tokens false t := by
  have hmark := w.isPrefixOf_mark ht
  have hsolid := w.not_isBlank
  obtain ⟨c, rest, hw⟩ := List.exists_cons_of_ne_nil w.ne_nil
  rw [hw] at hmark hsolid ⊢
  have hnone : Flags.flag? (c :: rest ++ t) = none := by
    rw [Flags.flag?_eq, hmark]
    simp
  rw [List.cons_append, Flags.tokens_skip (by rw [if_pos rfl]; exact hnone),
    hsolid c List.mem_cons_self]
  exact tokens_solid (fun d hd => hsolid d (List.mem_cons_of_mem c hd)) t

/-- A flag can begin after blanks. -/
theorem Gap.tokens (gap : Gap) (free : Bool) (t : Text) :
    Flags.tokens free (gap.text ++ t) = Flags.tokens true t := by
  obtain ⟨text, hne, hblank⟩ := gap
  simp only
  induction text generalizing free with
  | nil => exact absurd rfl hne
  | cons c blanks ih =>
    have hc : c.isBlank = true := hblank c List.mem_cons_self
    have hmark : mark.isPrefixOf (c :: (blanks ++ t)) = false := by
      have hhyphen : CodePoint.ofChar '-' ≠ c := by
        rintro rfl
        exact absurd hc (by decide)
      simp [mark, Text.ofString, List.isPrefixOf, hhyphen]
    have hnone : (if free then Flags.flag? (c :: (blanks ++ t)) else none) = none := by
      rw [Flags.flag?_eq, hmark]
      simp
    rw [List.cons_append, Flags.tokens_skip hnone, hc]
    cases blanks with
    | nil => rfl
    | cons d blanks =>
      exact ih true (List.cons_ne_nil d blanks) fun e he => hblank e (List.mem_cons_of_mem c he)

/-- **Flags one after the other are read as they were written.** -/
theorem tokens_texts (items : List Item) : Flags.tokens false (texts items) = items.map Item.token := by
  induction items with
  | nil => rfl
  | cons i items ih =>
    have htexts : texts (i :: items) = i.gap.text ++ (i.flag ++ texts items) := by
      simp [texts, Item.text]
    rw [htexts, i.gap.tokens, Flags.tokens_flag (i.flag?_flag items), ih, List.map_cons]

/-! ## The line -/

theorem endsSolid_flag (i : Item) : EndsSolid i.flag := by
  rw [Item.flag]
  refine EndsSolid.append ?_ _
  have hname : EndsSolid i.name.text :=
    Text.endsSolid_of_forall i.name.ne_nil fun c hc => by
      by_contra hblank
      have hword := i.name.isWord c hc
      rw [CodePoint.isWord_of_isBlank (by simpa using hblank)] at hword
      cases hword
  cases i.value with
  | none =>
    rw [Value.text, List.append_nil]
    exact hname
  | quoted gap text closed =>
    have hquote : EndsSolid [doubleQuote] := ⟨doubleQuote, rfl, by decide⟩
    exact (((hquote.append text).append [doubleQuote]).append gap.text).append _
  | bare gap word unquoted =>
    exact ((Text.endsSolid_of_forall word.ne_nil word.not_isBlank).append gap.text).append _

theorem endsSolid_texts {t : Text} (ht : EndsSolid t) (items : List Item) : EndsSolid (t ++ texts items) := by
  induction items generalizing t with
  | nil =>
    rw [texts, List.flatMap_nil, List.append_nil]
    exact ht
  | cons i items ih =>
    have hsplit : t ++ texts (i :: items) = t ++ (i.gap.text ++ i.flag) ++ texts items := by
      simp [texts, Item.text]
    rw [hsplit]
    exact ih (((endsSolid_flag i).append _).append _)

variable (w : Written)

/-- The line from its second word. -/
def rest : Text := w.subVerb.text ++ texts w.items

/-- The line without the blanks around it. -/
def core : Text := w.verb.text ++ (w.gap.text ++ w.rest)

/-- The line. -/
def line : Text := w.before ++ (w.core ++ w.after)

theorem endsSolid_rest : EndsSolid w.rest :=
  endsSolid_texts (Text.endsSolid_of_forall w.subVerb.ne_nil w.subVerb.not_isBlank) w.items

theorem strip_line : w.line.strip = w.core := by
  have hcore : EndsSolid w.core := (w.endsSolid_rest.append _).append _
  have hleft : Text.stripLeft w.line = w.core ++ w.after := by
    rw [line, Text.stripLeft, List.dropWhile_append_of_pos w.before_isBlank, core, List.append_assoc]
    exact w.verb.stripLeft _
  rw [Text.strip, hleft, hcore.stripRight w.after_isBlank]

theorem strip_gap_rest : Text.strip (w.gap.text ++ w.rest) = w.rest := by
  have hright : Text.stripRight (w.rest ++ []) = w.rest := w.endsSolid_rest.stripRight nofun
  rw [List.append_nil] at hright
  rw [Text.strip, w.gap.stripLeft, rest, w.subVerb.stripLeft]
  exact hright

/-- The flags that are read in the line are those that were written. -/
theorem scan_core : Flags.scan w.core = w.items.map Item.token := by
  show Flags.tokens true w.core = _
  rw [core, w.verb.tokens (w.gap.pauses _), w.gap.tokens, rest, w.subVerb.tokens (pauses_texts _),
    tokens_texts]

theorem parse_eq : Line.parse w.line = some
    { raw := w.core
      verb := w.verb.text.lower
      subVerb := w.subVerb.text.lower
      remainder := w.rest
      flags := Flags.sum (w.items.map Item.token) } := by
  have hnonempty : w.core.isEmpty = false := by
    rw [List.isEmpty_eq_false_iff, core]
    exact List.append_ne_nil_of_left_ne_nil w.verb.ne_nil _
  have hverb : Text.firstWord w.core = (w.verb.text, w.gap.text ++ w.rest) :=
    w.verb.firstWord (w.gap.pauses _)
  have hsubVerb : (Text.firstWord w.rest).1 = w.subVerb.text :=
    congrArg Prod.fst (w.subVerb.firstWord (pauses_texts w.items))
  unfold Line.parse
  simp only [w.strip_line, hnonempty, hverb, w.strip_gap_rest, hsubVerb, Flags.parse_eq_sum, w.scan_core,
    Bool.false_eq_true, if_false]

/-- **Reading a line recovers what was written**: the two words in lower case; for each name the last
value that was written for it, and no other values; and as switches the names whose last flag has no
value. -/
theorem parse_written : ∃ l, Line.parse w.line = some l ∧
    l.verb = w.verb.text.lower ∧ l.subVerb = w.subVerb.text.lower ∧
    (∀ name, Table.get? name l.flags.values = Flags.valueOf? name (w.items.map Item.token)) ∧
    ∀ name, name ∈ l.flags.switches ↔
      ∃ token ∈ Flags.lastOf? name (w.items.map Item.token), token.value = none :=
  ⟨_, w.parse_eq, rfl, rfl, fun name => Flags.get?_values_sum name _,
    fun name => Flags.mem_switches_sum name _⟩

/-- A line with a flag of each form. The quoted value looks like a flag. -/
example : ∃ w : Written, w.line = " VAULT Create --name \"--x\"  --name --dry a-b " := by
  let gap : Gap := ⟨" ", by decide, by decide⟩
  let name : Name := ⟨"name", by decide, by decide +kernel⟩
  exact ⟨{
    before := " ", after := " ", gap
    verb := ⟨"VAULT", by decide, by decide, by decide⟩
    subVerb := ⟨"Create", by decide, by decide, by decide⟩
    items := [⟨gap, name, .quoted gap "--x" (by decide)⟩, ⟨⟨"  ", by decide, by decide⟩, name, .none⟩,
      ⟨gap, ⟨"dry", by decide, by decide +kernel⟩,
        .bare gap ⟨"a-b", by decide, by decide, by decide⟩ (by decide)⟩]
    before_isBlank := by decide
    after_isBlank := by decide }, by decide⟩

end Written

end VaultConsole
