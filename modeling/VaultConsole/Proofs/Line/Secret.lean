import Mathlib.Data.List.Forall2
import VaultConsole.Event.Basic
import VaultConsole.Line.Basic
import VaultConsole.Proofs.Line.Scan

/-!
# A secret on a line

A secret is typed as the quoted value of a flag. Where a word stands before that flag, the verb and the
second word of the line do not touch the value, and the scan reads it as one flag. So two lines that
differ only in the secret come to the same parts, but for the value of that flag.

* `Line.Slot`, `Line.Slot.line`: a place for a quoted value, and the line with a value in it.
* `Flags.Alike`, `Line.Alike`: flags and lines that differ at most in the values of secret flags.
* `Flags.Alike.flagsField_eq`, `Line.Alike.flag?_eq`, `Line.Alike.rel_flag?`: what they have in common.
* `Line.Slot.alike`: **a line tells of its secret only in the value of a secret flag.**
-/

namespace VaultConsole

open List (Forall₂)
open Flags (mark Token)
open Text (EndsBlank doubleQuote)

/-! ## Lines that differ in a secret -/

variable {S : Text → Text → Prop}

/-- Values that a flag has in two lines: they are related and not empty. -/
structure Flags.Given (S : Text → Text → Prop) (v v' : Text) : Prop where
  related : S v v'
  left : v ≠ []
  right : v' ≠ []

/-- One flag with its value, or values of a secret flag. -/
inductive Flags.Entry.Alike (S : Text → Text → Prop) : Text × Text → Text × Text → Prop
  | same (e : Text × Text) : Alike S e e
  | secret {name v v' : Text} (hname : name ∈ Event.secretNames) (h : Given S v v') :
      Alike S (name, v) (name, v')

namespace Flags

theorem Entry.Alike.name_eq {e e' : Text × Text} (h : Entry.Alike S e e') : e'.1 = e.1 := by
  cases h <;> rfl

/-- Flags that differ at most in the values of secret ones, which are related. -/
structure Alike (S : Text → Text → Prop) (flags flags' : Flags) : Prop where
  values : Forall₂ (Entry.Alike S) flags.values flags'.values
  switches : flags'.switches = flags.switches

/-- A flag as it was written, in two lines. -/
inductive Token.Alike (S : Text → Text → Prop) : Token → Token → Prop
  | same (token : Token) : Alike S token token
  | secret {name v v' : Text} (hname : name ∈ Event.secretNames) (h : Given S v v') :
      Alike S ⟨name, some v⟩ ⟨name, some v'⟩

theorem alike_put {values values' : Table Text Text} (h : Forall₂ (Entry.Alike S) values values')
    {name v v' : Text} (hv : Entry.Alike S (name, v) (name, v')) :
    Forall₂ (Entry.Alike S) (Table.put name v values) (Table.put name v' values') := by
  induction h with
  | nil => exact .cons hv .nil
  | @cons e e' rest rest' he hrest ih =>
    obtain ⟨k, w⟩ := e
    obtain ⟨k', w'⟩ := e'
    obtain rfl : k' = k := he.name_eq
    rw [Table.put, Table.put]
    split
    · exact .cons hv hrest
    · exact .cons he ih

theorem Alike.add {flags flags' : Flags} (h : flags.Alike S flags') {token token' : Token}
    (htoken : token.Alike S token') : (flags.add token).Alike S (flags'.add token') := by
  cases htoken with
  | same token =>
    obtain ⟨name, value⟩ := token
    cases value with
    | none => exact ⟨h.values, by rw [Flags.add, Flags.add, h.switches]⟩
    | some v => exact ⟨alike_put h.values (.same _), by rw [Flags.add, Flags.add, h.switches]⟩
  | secret hname hv =>
    exact ⟨alike_put h.values (.secret hname hv), by rw [Flags.add, Flags.add, h.switches]⟩

theorem Alike.foldl_add {flags flags' : Flags} (h : flags.Alike S flags')
    {tokens tokens' : List Token} (htokens : Forall₂ (Token.Alike S) tokens tokens') :
    (tokens.foldl Flags.add flags).Alike S (tokens'.foldl Flags.add flags') := by
  induction htokens generalizing flags flags' with
  | nil => exact h
  | cons htoken _ ih => exact ih (h.add htoken)

/-- **A log is told the same** of flags that are alike. -/
theorem Alike.flagsField_eq {flags flags' : Flags} (h : flags.Alike S flags') :
    Event.flagsField flags'.values = Event.flagsField flags.values := by
  have hcovered : Event.withoutSecrets flags'.values = Event.withoutSecrets flags.values := by
    have hvalues := h.values
    generalize flags.values = values at hvalues ⊢
    generalize flags'.values = values' at hvalues ⊢
    induction hvalues with
    | nil => rfl
    | cons he _ ih =>
      refine List.cons_eq_cons.2 ⟨?_, ih⟩
      cases he with
      | same e => rfl
      | secret hname _ => simp [hname]
  rw [Event.flagsField, Event.flagsField, hcovered]

end Flags

/-- Lines with the same words, whose flags differ at most in the values of secret ones. Where the line
is to search, it looks for the same. -/
structure Line.Alike (S : Text → Text → Prop) (l l' : Line) : Prop where
  verb : l'.verb = l.verb
  subVerb : l'.subVerb = l.subVerb
  flags : l.flags.Alike S l'.flags
  sought : l.verb = "search" → l'.remainder = l.remainder

theorem Line.alike_refl (l : Line) : l.Alike S l :=
  ⟨rfl, rfl, ⟨List.forall₂_same.2 fun e _ => .same e, rfl⟩, fun _ => rfl⟩

theorem Line.parse_alike (line : Text) :
    Option.Rel (Line.Alike S) (Line.parse line) (Line.parse line) := by
  cases Line.parse line with
  | none => exact .none
  | some l => exact .some (Line.alike_refl l)

namespace Line.Alike

variable {l l' : Line}

theorem get?_values (h : l.Alike S l') (name : Text) :
    Option.Rel (fun v v' => v = v' ∨ name ∈ Event.secretNames ∧ Flags.Given S v v')
      (Table.get? name l.flags.values) (Table.get? name l'.flags.values) := by
  have hvalues := h.flags.values
  generalize l.flags.values = values at hvalues ⊢
  generalize l'.flags.values = values' at hvalues ⊢
  induction hvalues with
  | nil => exact .none
  | @cons e e' rest rest' he _ ih =>
    obtain ⟨k, v⟩ := e
    obtain ⟨k', v'⟩ := e'
    obtain rfl : k' = k := he.name_eq
    rw [Table.get?, Table.get?]
    split
    · next hk =>
      subst hk
      refine .some ?_
      cases he with
      | same e => exact .inl rfl
      | secret hname hv => exact .inr ⟨hname, hv⟩
    · exact ih

theorem flag?_eq (h : l.Alike S l') (name : Text) (hname : name ∉ Event.secretNames) :
    l'.flag? name = l.flag? name := by
  have hget := h.get?_values name
  unfold Line.flag?
  generalize Table.get? name l.flags.values = found at hget ⊢
  generalize Table.get? name l'.flags.values = found' at hget ⊢
  cases hget with
  | none => rfl
  | some hv => rw [hv.resolve_right fun hsecret => hname hsecret.1]

/-- Whether a flag has a value is the same in both lines. -/
theorem rel_flag? [Std.Refl S] (h : l.Alike S l') (name : Text) :
    Option.Rel (Flags.Given S) (l.flag? name) (l'.flag? name) := by
  have hget := h.get?_values name
  unfold Line.flag?
  generalize Table.get? name l.flags.values = found at hget ⊢
  generalize Table.get? name l'.flags.values = found' at hget ⊢
  cases hget with
  | none => exact .none
  | @some v v' hv =>
    rcases hv with rfl | ⟨-, hv⟩
    · simp only
      split
      · exact .none
      · next hne =>
        rw [List.isEmpty_iff] at hne
        exact .some ⟨Std.Refl.refl v, hne, hne⟩
    · have hleft : v.isEmpty = false := by simpa using hv.left
      have hright : v'.isEmpty = false := by simpa using hv.right
      simp only [hleft, hright, Bool.false_eq_true, if_false]
      exact .some hv

theorem hasSwitch_eq (h : l.Alike S l') (name : Text) : l'.hasSwitch name = l.hasSwitch name := by
  have hget := h.get?_values name
  unfold Line.hasSwitch Table.has
  rw [h.flags.switches]
  generalize Table.get? name l.flags.values = found at hget ⊢
  generalize Table.get? name l'.flags.values = found' at hget ⊢
  cases hget <;> rfl

end Line.Alike

/-! ## A place for a secret -/

/-- A place in a line for the quoted value of a flag: the flag begins where one can, outside the quoted
values of the flags before it. -/
structure Line.Slot where
  before : Text
  name : Text
  gap : Text
  after : Text
  boundary : before = [] ∨ before.EndsBlank
  outside : Flags.Closed true before
  name_ne_nil : name ≠ []
  name_isWord : ∀ c ∈ name, c.isWord = true
  gap_ne_nil : gap ≠ []
  gap_isBlank : ∀ c ∈ gap, c.isBlank = true

/-- A value that can stand between quotes, and is not empty. -/
def Text.Quotable (v : Text) : Prop := v ≠ [] ∧ doubleQuote ∉ v

instance (v : Text) : Decidable v.Quotable := inferInstanceAs (Decidable (_ ∧ _))

namespace Line.Slot

variable (p : Slot) (v : Text)

/-- The flag with its value, and what follows it. -/
def flagged : Text := mark ++ (p.name ++ (p.gap ++ doubleQuote :: (v ++ doubleQuote :: p.after)))

/-- The line with a value in its place. -/
def line : Text := p.before ++ p.flagged v

/-- The line up to the quote in front of the value. -/
def lead : Text := p.before ++ (mark ++ (p.name ++ p.gap))

theorem line_eq : p.line v = p.lead ++ doubleQuote :: (v ++ doubleQuote :: p.after) := by
  simp [line, flagged, lead]

theorem mark_flagged : mark <+: p.flagged v := List.prefix_append _ _

variable {v}

theorem tokens_flagged (hv : doubleQuote ∉ v) :
    Flags.tokens true (p.flagged v) = ⟨p.name, some v⟩ :: Flags.tokens false p.after :=
  Flags.tokens_flag
    (Flags.flag?_quoted p.name_ne_nil p.name_isWord p.gap_ne_nil p.gap_isBlank hv p.after)

/-- The flags of the line: those before the place, the one with the value, and those behind it. -/
theorem tokens_line (hv : doubleQuote ∉ v) :
    Flags.scan (p.line v) =
      Flags.tokens true p.before ++ ⟨p.name, some v⟩ :: Flags.tokens false p.after := by
  have hbefore : p.before.EndsBlank ∨ p.before = [] ∧ true = true :=
    p.boundary.symm.imp id fun hnil => ⟨hnil, rfl⟩
  have hline := Flags.tokens_append p.outside hbefore (p.mark_flagged v)
  rw [p.tokens_flagged hv] at hline
  exact hline

/-- The place in the line without the blanks at its ends. -/
def trimmed : Slot where
  before := p.before.stripLeft
  name := p.name
  gap := p.gap
  after := p.after.stripRight
  boundary := by
    by_cases hnil : p.before.stripLeft = []
    · exact .inl hnil
    · rcases p.boundary with hbefore | hbefore
      · rw [hbefore] at hnil
        exact absurd rfl hnil
      · exact .inr (hbefore.of_suffix (List.dropWhile_suffix _) hnil)
  outside := p.outside.stripLeft
  name_ne_nil := p.name_ne_nil
  name_isWord := p.name_isWord
  gap_ne_nil := p.gap_ne_nil
  gap_isBlank := p.gap_isBlank

theorem stripRight_rest : Text.stripRight (doubleQuote :: (v ++ doubleQuote :: p.after)) =
    doubleQuote :: (v ++ doubleQuote :: p.after.stripRight) := by
  have hquote : doubleQuote.isBlank = false := by decide
  rw [Text.stripRight_cons hquote, Text.stripRight_append, Text.stripRight_cons hquote]
  rw [Text.stripRight_cons hquote]
  exact List.cons_ne_nil _ _

theorem strip_line : (p.line v).strip = p.trimmed.line v := by
  have hleft : Text.stripLeft (p.line v) =
      p.trimmed.lead ++ doubleQuote :: (v ++ doubleQuote :: p.after) := by
    rw [line, Flags.stripLeft_append_of_mark (p.mark_flagged v)]
    simp [flagged, lead, trimmed]
  rw [Text.strip, hleft, Text.stripRight_append, stripRight_rest, line_eq]
  · rfl
  · rw [stripRight_rest]
    exact List.cons_ne_nil _ _

theorem endsBlank_lead : p.lead.EndsBlank := by
  rw [lead, ← List.append_assoc, ← List.append_assoc, Text.endsBlank_append_iff p.gap_ne_nil]
  exact ⟨_, List.getLast?_eq_some_getLast p.gap_ne_nil, p.gap_isBlank _ (List.getLast_mem _)⟩

/-- After the first word of the line another one begins before the value, if a word stands before the
flag. -/
theorem stripLeft_lead_ne_nil (hword : p.before.isBlank = false) :
    Text.stripLeft (p.trimmed.lead.dropWhile (!·.isBlank)) ≠ [] := by
  have hbefore : p.before.stripLeft ≠ [] := by
    intro hnil
    rw [Text.stripLeft, Text.dropWhile_isBlank_eq_nil_iff, hword] at hnil
    cases hnil
  have hends : p.before.stripLeft.EndsBlank := p.trimmed.boundary.resolve_left hbefore
  have hcut : p.trimmed.lead.dropWhile (!·.isBlank) =
      p.before.stripLeft.dropWhile (!·.isBlank) ++ (mark ++ (p.name ++ p.gap)) :=
    (Text.cut_append (hends.dropWhile fun c hc => by simp [hc]).ne_nil _).2
  -- the hyphens of the flag are no blanks
  have hmark : mark <+: mark ++ (p.name ++ p.gap) := List.prefix_append _ _
  rw [hcut, Flags.stripLeft_append_of_mark hmark]
  exact List.append_ne_nil_of_right_ne_nil _ (List.cons_ne_nil _ _)

/-- The words of a line end before the value, if a word stands before the flag. -/
theorem parse_line (hword : p.before.isBlank = false) :
    Line.parse (p.line v) = some
      { raw := p.trimmed.line v
        verb := Text.lower (p.trimmed.lead.takeWhile (!·.isBlank))
        subVerb := Text.lower ((Text.stripLeft (p.trimmed.lead.dropWhile (!·.isBlank))).takeWhile
          (!·.isBlank))
        remainder := Text.strip (p.trimmed.lead.dropWhile (!·.isBlank) ++
          doubleQuote :: (v ++ doubleQuote :: p.trimmed.after))
        flags := Flags.parse (p.trimmed.line v) } := by
  have hstops : ∀ c : CodePoint, c.isBlank = true → (!c.isBlank) = false := fun c hc => by simp [hc]
  have hrest : EndsBlank (p.trimmed.lead.dropWhile (!·.isBlank)) :=
    p.trimmed.endsBlank_lead.dropWhile hstops
  have hne := p.stripLeft_lead_ne_nil hword
  have hsecond : EndsBlank ((Text.stripLeft (p.trimmed.lead.dropWhile (!·.isBlank))).dropWhile
      (!·.isBlank)) :=
    (hrest.of_suffix (List.dropWhile_suffix _) hne).dropWhile hstops
  have hfirst := Text.cut_append hrest.ne_nil (doubleQuote :: (v ++ doubleQuote :: p.trimmed.after))
  have hquote : Text.stripRight (doubleQuote :: (v ++ doubleQuote :: p.trimmed.after)) ≠ [] := by
    rw [p.trimmed.stripRight_rest]
    exact List.cons_ne_nil _ _
  have hnonempty : (p.trimmed.line v).isEmpty = false := by simp [line, flagged, mark, Text.ofString]
  have hwords : Text.firstWord (p.trimmed.line v) = (p.trimmed.lead.takeWhile (!·.isBlank),
      p.trimmed.lead.dropWhile (!·.isBlank) ++ doubleQuote :: (v ++ doubleQuote :: p.trimmed.after)) := by
    rw [p.trimmed.line_eq, Text.firstWord, List.span_eq_takeWhile_dropWhile, hfirst.1, hfirst.2]
  have hsub : (Text.firstWord (Text.strip (p.trimmed.lead.dropWhile (!·.isBlank) ++
      doubleQuote :: (v ++ doubleQuote :: p.trimmed.after)))).1 =
      (Text.stripLeft (p.trimmed.lead.dropWhile (!·.isBlank))).takeWhile (!·.isBlank) := by
    rw [Text.strip, Text.stripLeft_append hne, Text.stripRight_append hquote, Text.firstWord,
      List.span_eq_takeWhile_dropWhile, (Text.cut_append hsecond.ne_nil _).1]
  unfold Line.parse
  simp only [p.strip_line, hnonempty, Bool.false_eq_true, if_false, hwords, hsub]

/-- **A line tells of its secret only in the value of a secret flag**, if a word stands before that
flag and the line is not to search. -/
theorem alike (hname : p.name ∈ Event.secretNames) (hword : p.before.isBlank = false) {v v' : Text}
    (hv : v.Quotable) (hv' : v'.Quotable) (hS : S v v')
    (hsearch : ∀ l, Line.parse (p.line v) = some l → l.verb ≠ "search") :
    Option.Rel (Line.Alike S) (Line.parse (p.line v)) (Line.parse (p.line v')) := by
  have hline := p.parse_line (v := v) hword
  have hverb := hsearch _ hline
  rw [hline, p.parse_line hword]
  refine .some ⟨rfl, rfl, ?_, fun hsought => absurd hsought hverb⟩
  have hsame (tokens : List Token) : Forall₂ (Token.Alike S) tokens tokens :=
    List.forall₂_same.2 fun token _ => .same token
  have hempty : Flags.Alike S ⟨[], []⟩ ⟨[], []⟩ := ⟨.nil, rfl⟩
  show (Flags.parse (p.trimmed.line v)).Alike S (Flags.parse (p.trimmed.line v'))
  rw [Flags.parse, Flags.parse, p.trimmed.tokens_line hv.2, p.trimmed.tokens_line hv'.2]
  exact hempty.foldl_add (List.rel_append (hsame _) (.cons (.secret hname ⟨hS, hv.1, hv'.1⟩) (hsame _)))

end Line.Slot

end VaultConsole
