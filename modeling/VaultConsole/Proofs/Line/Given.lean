import VaultConsole.Proofs.Line.Scan

/-!
# What the flags of a line come to

The flags that were read are added one after the other, and of several with one name the last one
counts. So what a line says of a name can be told from the flags in their order.

* `Flags.valueOf?`: the last value that was written for a name; `Flags.lastOf?`: the last flag of a
  name.
* `Flags.get?_values_sum`, `Flags.mem_switches_sum`: what a name has after all flags were added.
* `Flags.valueOf?_of_perm`: where no name repeats, the order of the flags does not matter.
* `Flags.Reports`, `Flags.reports_parse_iff`: the names that a line reports are those that were read.
-/

namespace VaultConsole

namespace Flags

/-- The value that a flag gives to a name. -/
def Token.valueFor? (name : Text) (token : Token) : Option Text :=
  if token.name = name then token.value else none

/-- The last value that is written for a name. -/
def valueOf? (name : Text) (tokens : List Token) : Option Text :=
  (tokens.filterMap (Token.valueFor? name)).getLast?

/-- The last flag of a name. -/
def lastOf? (name : Text) (tokens : List Token) : Option Token :=
  (tokens.filter fun token => token.name = name).getLast?

/-- The flags of a line of which these were read. -/
def sum (tokens : List Token) : Flags := tokens.foldl add ⟨[], []⟩

theorem parse_eq_sum (line : Text) : parse line = sum (scan line) := rfl

theorem sum_append (tokens : List Token) (token : Token) :
    sum (tokens ++ [token]) = (sum tokens).add token := List.foldl_concat ..

theorem lastOf?_append (name : Text) (tokens : List Token) (token : Token) :
    lastOf? name (tokens ++ [token]) =
      if token.name = name then some token else lastOf? name tokens := by
  by_cases h : token.name = name <;> simp [lastOf?, List.filter_append, h]

theorem valueOf?_append (name : Text) (tokens : List Token) (token : Token) :
    valueOf? name (tokens ++ [token]) =
      (token.valueFor? name).or (valueOf? name tokens) := by
  unfold valueOf?
  rw [List.filterMap_append, List.getLast?_append]
  refine congrArg (Option.or · _) ?_
  cases hvalue : token.valueFor? name with
  | none => rw [List.filterMap_cons_none hvalue]; rfl
  | some v => rw [List.filterMap_cons_some hvalue]; rfl

/-- **The value of a name is the last one that is written for it.** -/
theorem get?_values_sum (name : Text) (tokens : List Token) :
    Table.get? name (sum tokens).values = valueOf? name tokens := by
  induction tokens using List.reverseRecOn with
  | nil => rfl
  | append_singleton tokens token ih =>
    obtain ⟨name', value⟩ := token
    rw [sum_append, valueOf?_append, ← ih]
    cases value with
    | none => simp [add, Token.valueFor?]
    | some v =>
      rw [add, Table.get?_put]
      by_cases h : name' = name <;> simp [Token.valueFor?, h]

/-- A flag with a value. -/
def Token.giving (flag : Text × Text) : Token := ⟨flag.1, some flag.2⟩

theorem filterMap_giving {given : Table Text Text} (h : (Table.keys given).Nodup) (name : Text) :
    (given.map Token.giving).filterMap (Token.valueFor? name) = (Table.get? name given).toList := by
  induction given with
  | nil => rfl
  | cons flag rest ih =>
    obtain ⟨name', value⟩ := flag
    obtain ⟨hfirst, hrest⟩ := List.nodup_cons.1 h
    by_cases hname : name' = name
    · subst hname
      have hnone : Table.get? name' rest = none := Table.get?_eq_none_iff.2 hfirst
      have hvalue : (Token.giving (name', value)).valueFor? name' = some value := if_pos rfl
      rw [List.map_cons, List.filterMap_cons_some hvalue, ih hrest, hnone, Table.get?, if_pos rfl]
      rfl
    · have hvalue : (Token.giving (name', value)).valueFor? name = none := if_neg hname
      rw [List.map_cons, List.filterMap_cons_none hvalue, ih hrest, Table.get?, if_neg hname]

/-- **Where no name repeats, the order of the flags does not matter.** -/
theorem valueOf?_of_perm {tokens : List Token} {given : Table Text Text}
    (h : tokens.Perm (given.map Token.giving)) (hdistinct : (Table.keys given).Nodup) (name : Text) :
    valueOf? name tokens = Table.get? name given := by
  have hperm := h.filterMap (Token.valueFor? name)
  rw [filterMap_giving hdistinct] at hperm
  unfold valueOf?
  cases hvalue : Table.get? name given with
  | none =>
    rw [hvalue] at hperm
    rw [hperm.eq_nil]
    rfl
  | some value =>
    rw [hvalue] at hperm
    rw [hperm.eq_singleton]
    rfl

/-- **A name is a switch exactly if the last flag of that name has no value.** -/
theorem mem_switches_sum (name : Text) (tokens : List Token) :
    name ∈ (sum tokens).switches ↔ ∃ token ∈ lastOf? name tokens, token.value = none := by
  induction tokens using List.reverseRecOn with
  | nil => simp [sum, lastOf?]
  | append_singleton tokens token ih =>
    obtain ⟨name', value⟩ := token
    rw [sum_append, lastOf?_append]
    by_cases h : name' = name
    · subst h
      cases value with
      | none =>
        by_cases hmem : name' ∈ (sum tokens).switches <;> simp [add, hmem]
      | some v => simp [add]
    · rw [if_neg h, ← ih]
      cases value with
      | none =>
        by_cases hmem : name' ∈ (sum tokens).switches <;> simp [add, hmem, Ne.symm h]
      | some v => simp [add, Ne.symm h]

/-- A name is reported: it has a value or is a switch. -/
def Reports (flags : Flags) (name : Text) : Prop :=
  Table.has name flags.values = true ∨ name ∈ flags.switches

instance (flags : Flags) (name : Text) : Decidable (flags.Reports name) :=
  inferInstanceAs (Decidable (_ ∨ _))

theorem reports_add_iff (flags : Flags) (token : Token) (name : Text) :
    (flags.add token).Reports name ↔ flags.Reports name ∨ token.name = name := by
  obtain ⟨name', value⟩ := token
  by_cases h : name' = name
  · subst h
    cases value with
    | none =>
      simp only [Reports, add, or_true, iff_true]
      refine .inr ?_
      split <;> simp [*]
    | some v => simp [Reports, add, Table.has, Table.get?_put]
  · cases value with
    | none =>
      simp only [Reports, add, h, or_false]
      split <;> simp [Ne.symm h]
    | some v => simp [Reports, add, Table.has, Table.get?_put, h, Ne.symm h]

/-- **A line reports the names of the flags that are read in it**, and no others. -/
theorem reports_parse_iff (line name : Text) :
    (parse line).Reports name ↔ ∃ token ∈ scan line, token.name = name := by
  rw [parse_eq_sum]
  generalize scan line = tokens
  induction tokens using List.reverseRecOn with
  | nil => simp [Reports, sum, Table.has, Table.get?]
  | append_singleton tokens token ih =>
    rw [sum_append, reports_add_iff, ih]
    simp only [List.mem_append, List.mem_singleton, or_and_right, exists_or, exists_eq_left]

end Flags

end VaultConsole
