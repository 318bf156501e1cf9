import VaultConsole.Proofs.Line.Given

/-!
# Where flags stand

The scan goes through a line from left to right and passes over what it takes for a flag with its value.
A name is reported for the places at which two hyphens and that name stand, after a blank or at the
beginning and outside of the values of the flags before. Nothing has to end there: the name ends where
its word does, so what follows may be a blank, and may be anything else that is no word.

* `Flags.Reaches`: how far the scan has come; `Flags.Begins`: a flag of a name begins.
* `Flags.exists_taken`: what a flag takes.
* `Flags.reports_iff_begins`: **a name is reported exactly if a flag of that name begins somewhere.**
* `Text.HasToken`: a text has a token between blanks.
* `Flags.Begins.hasToken`: the flag is one, if a blank or the end of the line follows its name.
-/

namespace VaultConsole

namespace Text

/-- What follows a front is at the beginning or after a blank. -/
def Boundary (front : Text) : Prop := front = [] ∨ front.EndsBlank

theorem boundary_append_singleton (front : Text) (c : CodePoint) :
    Boundary (front ++ [c]) ↔ c.isBlank = true := by
  simp [Boundary, EndsBlank]

theorem EndsSolid.not_boundary {taken : Text} (h : EndsSolid taken) (front : Text) :
    ¬ Boundary (front ++ taken) := by
  rintro (hnil | hblank)
  · obtain ⟨c, hc, -⟩ := h.append front
    rw [hnil] at hc
    cases hc
  · exact (h.append front).not_endsBlank hblank

/-- A text that stands between blanks, or at the ends, within a line. -/
def HasToken (line token : Text) : Prop :=
  ∃ front after, line = front ++ (token ++ after) ∧ Boundary front ∧ Pauses after

instance (t : Text) : Decidable t.EndsBlank :=
  match h : t.getLast? with
  | none => .isFalse fun ⟨c, hc, _⟩ => by rw [h] at hc; cases hc
  | some c => decidable_of_iff (c.isBlank = true)
      ⟨fun hblank => ⟨c, h, hblank⟩, fun ⟨d, hd, hblank⟩ => by rw [h] at hd; cases hd; exact hblank⟩

instance (front : Text) : Decidable front.Boundary := inferInstanceAs (Decidable (_ ∨ _))

instance (after : Text) : Decidable after.Pauses :=
  match after with
  | [] => .isTrue pauses_nil
  | c :: _ => decidable_of_iff (c.isBlank = true)
      ⟨fun hblank d hd => by cases hd; exact hblank, fun h => h c rfl⟩

theorem hasToken_iff (line token : Text) :
    HasToken line token ↔ ∃ n ∈ List.range (line.length + 1),
      Boundary (line.take n) ∧ token <+: line.drop n ∧ Pauses (line.drop (n + token.length)) := by
  constructor
  · rintro ⟨front, after, rfl, hfront, hafter⟩
    refine ⟨front.length, List.mem_range.2 ?_, ?_⟩
    · rw [List.length_append]
      omega
    · have hdrop : (front ++ (token ++ after)).drop (front.length + token.length) = after := by
        rw [← List.append_assoc]
        exact List.drop_left' (List.length_append ..)
      rw [List.take_left, List.drop_left, hdrop]
      exact ⟨hfront, List.prefix_append _ _, hafter⟩
  · rintro ⟨n, -, hfront, ⟨after, hafter⟩, hpauses⟩
    refine ⟨line.take n, after, by rw [hafter, List.take_append_drop], hfront, ?_⟩
    rw [← List.drop_drop, ← hafter, List.drop_left] at hpauses
    exact hpauses

instance (line token : Text) : Decidable (line.HasToken token) :=
  decidable_of_iff _ (hasToken_iff line token).symm

end Text

namespace Flags

open Text (Boundary EndsSolid Pauses doubleQuote)

/-! ## What a flag takes -/

/-- A value ends with no blank. -/
theorem exists_taken_of_valueAt? {t v tail : Text} (h : valueAt? t = some (v, tail)) :
    ∃ taken, t = taken ++ tail ∧ EndsSolid taken := by
  match t with
  | [] => cases h
  | c :: t =>
    by_cases hc : c = doubleQuote
    · have hsplit := List.takeWhile_append_dropWhile (p := (· ≠ doubleQuote)) (l := t)
      have hstops := List.head?_dropWhile_not (· ≠ doubleQuote) t
      rw [hc, valueAt?_quote] at h
      split at h
      · cases h
      · next d tail' hdrop =>
        cases h
        rw [hdrop] at hsplit hstops
        have hd : d = doubleQuote := by simpa using hstops
        refine ⟨c :: (t.takeWhile (· ≠ doubleQuote) ++ [d]), ?_, ?_⟩
        · rw [List.cons_append, List.append_assoc, List.singleton_append, hsplit]
        · rw [hd, ← List.cons_append]
          have hquote : EndsSolid [doubleQuote] := ⟨doubleQuote, rfl, by decide⟩
          exact hquote.append _
    · rw [valueAt?_bare hc] at h
      split at h
      · cases h
      · next hbare =>
        cases h
        refine ⟨(c :: t).takeWhile (!·.isBlank), List.takeWhile_append_dropWhile.symm, ?_⟩
        refine Text.endsSolid_of_forall ?_ fun d hd => by simpa using List.mem_takeWhile_imp hd
        have hsolid : c.isBlank = false := by simpa using fun hblank => hbare (.inl hblank)
        simp [hsolid]

theorem exists_taken_of_value? {t v tail : Text} (h : value? t = some (v, tail)) :
    ∃ taken, t = taken ++ tail ∧ EndsSolid taken := by
  match t with
  | [] => cases h
  | c :: t =>
    by_cases hc : c.isBlank = true
    · rw [value?_cons hc] at h
      obtain ⟨taken, htaken, hends⟩ := exists_taken_of_valueAt? h
      refine ⟨(c :: t).takeWhile CodePoint.isBlank ++ taken, ?_, hends.append _⟩
      rw [List.append_assoc, ← htaken]
      exact List.takeWhile_append_dropWhile.symm
    · rw [value?, if_neg hc] at h
      cases h

/-- A name, and what follows it: no word goes on there. -/
structure NamedBefore (name after : Text) : Prop where
  ne_nil : name ≠ []
  isWord : ∀ c ∈ name, c.isWord = true
  ends : ∀ c ∈ after.head?, c.isWord = false

/-- A flag begins with hyphens and its name. It takes something that ends with no blank. -/
theorem exists_taken {t tail : Text} {token : Token} (h : flag? t = some (token, tail)) :
    (∃ after, t = mark ++ (token.name ++ after) ∧ NamedBefore token.name after) ∧
      ∃ taken, t = taken ++ tail ∧ EndsSolid taken := by
  rw [flag?_eq] at h
  split at h
  · next hflag =>
    obtain ⟨hmark, hname⟩ := hflag
    obtain ⟨body, rfl⟩ := List.isPrefixOf_iff_prefix.1 hmark
    rw [List.drop_left] at h hname
    have hsplit := List.takeWhile_append_dropWhile (p := CodePoint.isWord) (l := body)
    have hword : ∀ c ∈ body.takeWhile CodePoint.isWord, c.isWord = true :=
      fun c hc => List.mem_takeWhile_imp hc
    have hends : ∀ c ∈ (body.dropWhile CodePoint.isWord).head?, c.isWord = false := by
      intro c hc
      have hstops := List.head?_dropWhile_not CodePoint.isWord body
      rw [Option.mem_def.1 hc] at hstops
      simpa using hstops
    have hnamed : NamedBefore (body.takeWhile CodePoint.isWord) (body.dropWhile CodePoint.isWord) :=
      ⟨hname, hword, hends⟩
    have hsolid : EndsSolid (mark ++ body.takeWhile CodePoint.isWord) := by
      refine (Text.endsSolid_of_forall hname fun c hc => ?_).append _
      by_contra hblank
      have hc' := hword c hc
      rw [CodePoint.isWord_of_isBlank (by simpa using hblank)] at hc'
      cases hc'
    simp only at h
    split at h
    · next v tail' hvalue =>
      cases h
      obtain ⟨taken, htaken, htakenEnds⟩ := exists_taken_of_value? hvalue
      refine ⟨⟨_, by rw [hsplit], hnamed⟩, mark ++ (body.takeWhile CodePoint.isWord ++ taken), ?_,
        (htakenEnds.append _).append _⟩
      rw [List.append_assoc, List.append_assoc, ← htaken, hsplit]
    · cases h
      refine ⟨⟨_, by rw [hsplit], hnamed⟩, mark ++ body.takeWhile CodePoint.isWord, ?_, hsolid⟩
      rw [List.append_assoc, hsplit]
  · cases h

/-- Where hyphens and a name stand, a flag of that name is read. -/
theorem NamedBefore.flag? {name after : Text} (h : NamedBefore name after) :
    ∃ token tail, Flags.flag? (mark ++ (name ++ after)) = some (token, tail) ∧ token.name = name := by
  obtain ⟨hname, hword, hends⟩ := h
  have hnone : after.takeWhile CodePoint.isWord = [] := by
    cases after with
    | nil => rfl
    | cons c after => simp [hends c rfl]
  have htake : (name ++ after).takeWhile CodePoint.isWord = name := by
    rw [List.takeWhile_append_of_pos hword, hnone, List.append_nil]
  have hmark : mark.isPrefixOf (mark ++ (name ++ after)) = true :=
    List.isPrefixOf_iff_prefix.2 (List.prefix_append _ _)
  rw [flag?_eq, List.drop_left, htake, if_pos ⟨hmark, hname⟩]
  simp only
  split
  · exact ⟨_, _, rfl, rfl⟩
  · exact ⟨_, _, rfl, rfl⟩

/-! ## How far the scan has come -/

/-- The scan of a line comes to a text, with a front before it. It goes on by one code point where no
flag begins, and by what a flag takes where one does. -/
inductive Reaches (line : Text) : Text → Text → Prop
  | start : Reaches line [] line
  | skip {front rest : Text} {c : CodePoint} (reached : Reaches line front (c :: rest))
      (none : Boundary front → flag? (c :: rest) = .none) : Reaches line (front ++ [c]) rest
  | flag {front taken tail : Text} {token : Token} (reached : Reaches line front (taken ++ tail))
      (boundary : Boundary front) (some : flag? (taken ++ tail) = .some (token, tail)) :
      Reaches line (front ++ taken) tail

theorem Reaches.eq {line front rest : Text} (h : Reaches line front rest) : line = front ++ rest := by
  induction h with
  | start => rfl
  | skip _ _ ih => rw [ih, List.append_assoc, List.singleton_append]
  | flag _ _ _ ih => rw [ih, List.append_assoc]

/-- In a line a flag of a name begins: at the beginning or after a blank, and outside of what the flags
before it take. -/
structure Begins (line name front after : Text) : Prop extends NamedBefore name after where
  reached : Reaches line front (mark ++ (name ++ after))
  boundary : Boundary front

/-- Where a blank or the end of the line follows, the flag is a token of the line. -/
theorem Begins.hasToken {line name front after : Text} (h : Begins line name front after)
    (hpauses : Pauses after) : line.HasToken (mark ++ name) :=
  ⟨front, after, by rw [h.reached.eq, List.append_assoc], h.boundary, hpauses⟩

section
variable {line : Text}

/-- What is read from a point on begins there or later. -/
theorem exists_begins_of_mem {rest front : Text} {free : Bool} (hreached : Reaches line front rest)
    (hfree : free = true ↔ Boundary front) {token : Token} (hmem : token ∈ tokens free rest) :
    ∃ front after, Begins line token.name front after := by
  -- along the scan, on the length of what is left
  induction hlength : rest.length using Nat.strong_induction_on generalizing rest front free with
  | _ n ih =>
    match rest with
    | [] => cases hmem
    | c :: rest =>
      subst hlength
      cases hflag : (if free then flag? (c :: rest) else none) with
      | none =>
        rw [tokens_skip hflag] at hmem
        have hnone : Boundary front → flag? (c :: rest) = none := by
          intro hboundary
          rw [if_pos (hfree.2 hboundary)] at hflag
          exact hflag
        exact ih _ (Nat.lt_succ_self _) (hreached.skip hnone) (Text.boundary_append_singleton front c).symm
          hmem rfl
      | some found =>
        obtain ⟨first, tail⟩ := found
        cases free with
        | false => cases hflag
        | true =>
          rw [if_pos rfl] at hflag
          have hboundary := hfree.1 rfl
          obtain ⟨⟨after, hstarts, hnamed⟩, taken, htaken, hends⟩ := exists_taken hflag
          rw [tokens_flag hflag, List.mem_cons] at hmem
          rcases hmem with rfl | hmem
          · rw [hstarts] at hreached
            exact ⟨front, after, hnamed, hreached, hboundary⟩
          · have hshorter := (suffix_of_flag? hflag).2
            rw [htaken] at hreached hflag
            refine ih _ hshorter (hreached.flag hboundary hflag) ?_ hmem rfl
            exact ⟨nofun, fun hblank => absurd hblank (hends.not_boundary front)⟩

/-- What is read from a point that the scan comes to is read in the line. -/
theorem Reaches.mem_scan {front rest : Text} (h : Reaches line front rest) {token : Token}
    (hmem : token ∈ tokens (decide (Boundary front)) rest) : token ∈ scan line := by
  induction h with
  | start => exact hmem
  | @skip front rest c _ hnone ih =>
    refine ih ?_
    have hskip : (if decide (Boundary front) = true then flag? (c :: rest) else none) = none := by
      split
      · next hboundary => exact hnone (of_decide_eq_true hboundary)
      · rfl
    have hfree : decide (Boundary (front ++ [c])) = c.isBlank := by
      rw [Bool.eq_iff_iff, decide_eq_true_iff]
      exact Text.boundary_append_singleton front c
    rw [tokens_skip hskip, ← hfree]
    exact hmem
  | @flag front taken tail first _ hboundary hflag ih =>
    refine ih ?_
    have hends : ¬ Boundary (front ++ taken) := by
      obtain ⟨-, taken', htaken, hends⟩ := exists_taken hflag
      rw [List.append_cancel_right htaken]
      exact hends.not_boundary front
    rw [decide_eq_false hends] at hmem
    rw [decide_eq_true hboundary, tokens_flag hflag]
    exact List.mem_cons_of_mem first hmem

end

/-- **A name is reported exactly if a flag of that name begins somewhere in the line**: at the beginning
or after a blank, outside of what the flags before it take, and so that no word goes on after the
name. -/
theorem reports_iff_begins (line name : Text) :
    (parse line).Reports name ↔ ∃ front after, Begins line name front after := by
  rw [reports_parse_iff]
  constructor
  · rintro ⟨token, hmem, rfl⟩
    exact exists_begins_of_mem .start (by simp [Boundary]) hmem
  · rintro ⟨front, after, hnamed, hreached, hboundary⟩
    obtain ⟨token, tail, hflag, rfl⟩ := hnamed.flag?
    refine ⟨token, hreached.mem_scan ?_, rfl⟩
    rw [decide_eq_true hboundary, tokens_flag hflag]
    exact List.mem_cons_self

end Flags

end VaultConsole
