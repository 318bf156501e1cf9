import Mathlib.Data.List.Infix
import VaultConsole.Text.Lower

/-!
# Parts of a text in lower case

Of all code points only the capital sigma has a small form that depends on what stands around it. So
a part of a text has within the text the small form that it has on its own, if each of its capital
sigmas ends a word in both or in neither. Where one does not, the part is in the text, and its small
form need not be in that of the text.

* `Text.lowerBetween`: a part in lower case, in view of what stands before it and after it.
* `Text.lower_append_append`: a text in lower case is that of its parts.
* `Text.Undisturbed`: the capital sigmas of a part end words within a text as they do on their own.
* `Text.lowerBetween_eq_lower_iff`: **exactly the undisturbed parts keep their small form.**
* `Text.occursIn_iff`: contiguous parts.
-/

namespace VaultConsole

namespace Text

/-- The one code point whose small form depends on its neighbours. -/
def capitalSigma : CodePoint := CodePoint.ofNat 0x3A3

/-- Whether a letter between two texts is the last one of a word. -/
def endsWord (before after : Text) : Bool := meetsCased before.reverse && !meetsCased after

/-- The small form of a code point between two texts. -/
def smallBetween (before : Text) (c : CodePoint) (after : Text) : Text :=
  if c.val = 0x3A3 then
    if endsWord before after then [CodePoint.ofNat 0x3C2] else [CodePoint.ofNat 0x3C3]
  else c.lower

/-- A part of a text in lower case, in view of what stands before it and after it. -/
def lowerBetween (before : Text) : (part after : Text) → Text
  | [], _ => []
  | c :: rest, after =>
    smallBetween before c (rest ++ after) ++ lowerBetween (before ++ [c]) rest after

theorem eq_capitalSigma_iff (c : CodePoint) : c = capitalSigma ↔ c.val = 0x3A3 :=
  ⟨fun h => h ▸ rfl, fun h => CodePoint.ext h⟩

theorem lowerAfter_append (before part after : Text) :
    lowerAfter before.reverse (part ++ after) =
      lowerBetween before part after ++ lowerAfter (before ++ part).reverse after := by
  induction part generalizing before with
  | nil => simp [lowerBetween]
  | cons c rest ih =>
    have hnext : lowerAfter (c :: before.reverse) (rest ++ after) =
        lowerBetween (before ++ [c]) rest after ++ lowerAfter (before ++ c :: rest).reverse after := by
      simpa using ih (before ++ [c])
    rw [List.cons_append, lowerAfter, lowerBetween, hnext, List.append_assoc]
    rfl

theorem lower_eq_lowerBetween (t : Text) : t.lower = lowerBetween [] t [] := by
  have h := lowerAfter_append [] t []
  rwa [List.append_nil, lowerAfter, List.append_nil] at h

/-- A text in lower case is that of its parts, each in view of the others. -/
theorem lower_append_append (before part after : Text) :
    (before ++ part ++ after).lower =
      lowerBetween [] before (part ++ after) ++ lowerBetween before part after
        ++ lowerBetween (before ++ part) after [] := by
  have hbefore := lowerAfter_append [] before (part ++ after)
  have hpart := lowerAfter_append before part after
  have hafter := lowerAfter_append (before ++ part) after []
  rw [List.append_nil, lowerAfter, List.append_nil] at hafter
  rw [List.nil_append, hpart, hafter] at hbefore
  rw [List.append_assoc, List.append_assoc]
  exact hbefore

/-! ## What stands around a part -/

/-- Two ways for a text to stand between others, under which the same ones of its capital sigmas end
words. -/
def EndsWordsAlike (part before after before' after' : Text) : Prop :=
  ∀ front back, part = front ++ capitalSigma :: back →
    endsWord (before ++ front) (back ++ after) = endsWord (before' ++ front) (back ++ after')

/-- Within a text, the capital sigmas of a part end words where they do in the part alone. -/
def Undisturbed (before part after : Text) : Prop := EndsWordsAlike part before after [] []

theorem endsWordsAlike_cons {c : CodePoint} {part before after before' after' : Text} :
    EndsWordsAlike (c :: part) before after before' after' ↔
      (c = capitalSigma → endsWord before (part ++ after) = endsWord before' (part ++ after')) ∧
        EndsWordsAlike part (before ++ [c]) after (before' ++ [c]) after' := by
  constructor
  · intro h
    refine ⟨fun hc => ?_, fun front back hpart => ?_⟩
    · have hhead := h [] part (by rw [hc]; rfl)
      rwa [List.append_nil, List.append_nil] at hhead
    · have htail := h (c :: front) back (by rw [hpart]; rfl)
      rwa [List.append_cons, List.append_cons before'] at htail
  · rintro ⟨hhead, htail⟩ front back hpart
    cases front with
    | nil =>
      obtain ⟨rfl, rfl⟩ := List.cons.inj hpart
      rw [List.append_nil, List.append_nil]
      exact hhead rfl
    | cons d front =>
      obtain ⟨rfl, hrest⟩ := List.cons.inj hpart
      rw [List.append_cons, List.append_cons before']
      exact htail front back hrest

theorem length_smallBetween (before before' after after' : Text) (c : CodePoint) :
    (smallBetween before c after).length = (smallBetween before' c after').length := by
  unfold smallBetween
  split
  · split <;> split <;> rfl
  · rfl

theorem smallBetween_eq_iff {before before' after after' : Text} {c : CodePoint} :
    smallBetween before c after = smallBetween before' c after' ↔
      (c = capitalSigma → endsWord before after = endsWord before' after') := by
  unfold smallBetween
  rw [eq_capitalSigma_iff]
  have hforms : CodePoint.ofNat 0x3C2 ≠ CodePoint.ofNat 0x3C3 := by decide
  by_cases hc : c.val = 0x3A3
  · cases endsWord before after <;> cases endsWord before' after' <;> simp [hc, hforms, hforms.symm]
  · simp [hc]

/-- Both small forms of a capital sigma have one length, so the parts of two equal texts correspond. -/
theorem lowerBetween_eq_iff {part before after before' after' : Text} :
    lowerBetween before part after = lowerBetween before' part after' ↔
      EndsWordsAlike part before after before' after' := by
  induction part generalizing before before' with
  | nil =>
    refine ⟨fun _ front back hpart => ?_, fun _ => rfl⟩
    exact absurd hpart (by simp)
  | cons c rest ih =>
    rw [endsWordsAlike_cons, ← ih, ← smallBetween_eq_iff]
    have hlength := length_smallBetween before before' (rest ++ after) (rest ++ after') c
    constructor
    · exact fun h => List.append_inj h hlength
    · rintro ⟨hhead, htail⟩
      rw [lowerBetween, lowerBetween, hhead, htail]

/-- **Exactly the undisturbed parts of a text keep their small form in it.** -/
theorem lowerBetween_eq_lower_iff {before part after : Text} :
    lowerBetween before part after = part.lower ↔ Undisturbed before part after := by
  rw [lower_eq_lowerBetween]
  exact lowerBetween_eq_iff

/-- Nothing disturbs a part without a capital sigma. -/
theorem undisturbed_of_notMem {part : Text} (h : capitalSigma ∉ part) (before after : Text) :
    Undisturbed before part after := by
  rintro front back rfl
  exact absurd (List.mem_append_right front List.mem_cons_self) h

/-- The small form of an undisturbed part is part of that of the text. -/
theorem Undisturbed.infix_lower {before part after : Text} (h : Undisturbed before part after) :
    part.lower <:+: (before ++ part ++ after).lower := by
  rw [lower_append_append, lowerBetween_eq_lower_iff.2 h]
  exact List.infix_append _ _ _

/-! ## Contiguous parts -/

theorem occursIn_iff {part t : Text} : occursIn part t = true ↔ part <:+: t := by
  induction t with
  | nil => simp [occursIn]
  | cons c rest ih =>
    rw [occursIn, Bool.or_eq_true, List.isPrefixOf_iff_prefix, ih, List.infix_cons_iff]

end Text

end VaultConsole
