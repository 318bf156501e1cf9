/-!
# Ordered tables

A table is a list of pairs in the order in which its keys came in. Writing a key that is there
keeps its place.

* `Table.put`, `Table.get?`, `Table.keys`: writing, reading, the order.
* `Table.get?_put`: what is read after a write.
* `Table.get?_eq_some_iff`: what is read where no key repeats.
* `Table.get?_merge`: what is read of two tables in one.
-/

namespace VaultConsole

/-- Values by key, in the order in which the keys came in. -/
abbrev Table (κ β : Type) := List (κ × β)

namespace Table

variable {κ β : Type} [DecidableEq κ]

/-- Writes a value: in the place of its key if that is there, else at the end. -/
def put (k : κ) (v : β) : Table κ β → Table κ β
  | [] => [(k, v)]
  | (k', v') :: rest => if k' = k then (k, v) :: rest else (k', v') :: put k v rest

def get? (k : κ) : Table κ β → Option β
  | [] => none
  | (k', v) :: rest => if k' = k then some v else get? k rest

def has (k : κ) (t : Table κ β) : Bool := (get? k t).isSome

omit [DecidableEq κ] in
def keys (t : Table κ β) : List κ := t.map Prod.fst

/-- The table of pairs, of which the last one counts where a key repeats. -/
def ofPairs (pairs : List (κ × β)) : Table κ β := pairs.foldl (fun t p => put p.1 p.2 t) []

def erase (k : κ) (t : Table κ β) : Table κ β := t.filter fun p => p.1 ≠ k

/-- Writes all pairs of the second table into the first. -/
def merge (t u : Table κ β) : Table κ β := u.foldl (fun t p => put p.1 p.2 t) t

theorem get?_put (k k' : κ) (v : β) (t : Table κ β) :
    get? k' (put k v t) = if k = k' then some v else get? k' t := by
  induction t with
  | nil => simp [put, get?]
  | cons p rest ih =>
    obtain ⟨a, b⟩ := p
    by_cases h : a = k
    · subst h; by_cases h' : a = k' <;> simp [put, get?, h']
    · by_cases h' : a = k'
      · subst h'; simp [put, get?, h, Ne.symm h]
      · simp [put, get?, h, h', ih]

theorem keys_put (k : κ) (v : β) (t : Table κ β) :
    keys (put k v t) = if k ∈ keys t then keys t else keys t ++ [k] := by
  induction t with
  | nil => simp [put, keys]
  | cons p rest ih =>
    obtain ⟨a, b⟩ := p
    by_cases h : a = k
    · subst h; simp [put, keys]
    · simp only [keys] at ih
      simp only [put, if_neg h, keys, List.map_cons, ih, List.mem_cons, Ne.symm h, false_or]
      by_cases hk : k ∈ List.map Prod.fst rest <;> simp [hk]

omit [DecidableEq κ] in
theorem mem_keys_of_mem {k : κ} {v : β} {t : Table κ β} (h : (k, v) ∈ t) : k ∈ keys t :=
  List.mem_map_of_mem h

theorem mem_of_get? {k : κ} {v : β} {t : Table κ β} (h : get? k t = some v) : (k, v) ∈ t := by
  induction t with
  | nil => cases h
  | cons pair rest ih =>
    rw [get?] at h
    split at h
    · next hkey =>
      cases h
      rw [← hkey]
      exact List.mem_cons_self
    · exact List.mem_cons_of_mem pair (ih h)

theorem get?_eq_none_iff {k : κ} {t : Table κ β} : get? k t = none ↔ k ∉ keys t := by
  induction t with
  | nil => simp [get?, keys]
  | cons p rest ih =>
    obtain ⟨a, b⟩ := p
    simp only [keys] at ih
    by_cases h : a = k
    · simp [get?, keys, h]
    · simp [get?, keys, h, Ne.symm h, ih]

/-- Where no key repeats, what is read is what is there. -/
theorem get?_eq_some_iff {t : Table κ β} (h : (keys t).Nodup) {k : κ} {v : β} :
    get? k t = some v ↔ (k, v) ∈ t := by
  refine ⟨mem_of_get?, fun hmem => ?_⟩
  induction t with
  | nil => cases hmem
  | cons p rest ih =>
    obtain ⟨a, b⟩ := p
    obtain ⟨hfirst, hrest⟩ := List.nodup_cons.1 h
    rcases List.mem_cons.1 hmem with heq | hmem
    · cases heq
      rw [get?, if_pos rfl]
    · -- the key of a later pair is not that of the first one
      have hne : a ≠ k := fun hk => hfirst (hk ▸ mem_keys_of_mem hmem)
      rw [get?, if_neg hne]
      exact ih hrest hmem

theorem isSome_get?_iff {k : κ} {t : Table κ β} : (get? k t).isSome = true ↔ k ∈ keys t := by
  cases h : get? k t with
  | none => simp [get?_eq_none_iff.1 h]
  | some v => simp [mem_keys_of_mem (mem_of_get? h)]

/-- A new key is written at the end. -/
theorem put_of_not_mem_keys {k : κ} {v : β} {t : Table κ β} (h : k ∉ keys t) :
    put k v t = t ++ [(k, v)] := by
  induction t with
  | nil => rfl
  | cons p t ih =>
    rw [keys, List.map_cons, List.mem_cons, not_or] at h
    rw [put, if_neg (Ne.symm h.1), ih h.2, List.cons_append]

theorem nodup_keys_put {t : Table κ β} (h : (keys t).Nodup) (k : κ) (v : β) :
    (keys (put k v t)).Nodup := by
  rw [keys_put]
  split
  · exact h
  · next hnew =>
    exact List.nodup_append.2 ⟨h, by simp, fun a ha b hb hab =>
      hnew (List.mem_singleton.1 hb ▸ hab ▸ ha)⟩

theorem forall_mem_put {P : κ × β → Prop} {k : κ} {v : β} {t : Table κ β} (ht : ∀ p ∈ t, P p)
    (hnew : P (k, v)) : ∀ p ∈ put k v t, P p := by
  induction t with
  | nil => exact fun p hp => List.mem_singleton.1 hp ▸ hnew
  | cons first rest ih =>
    obtain ⟨hfirst, hrest⟩ := List.forall_mem_cons.1 ht
    rw [put]
    split
    · exact List.forall_mem_cons.2 ⟨hnew, hrest⟩
    · exact List.forall_mem_cons.2 ⟨hfirst, ih hrest⟩

theorem nodup_keys_merge {t : Table κ β} (h : (keys t).Nodup) (u : Table κ β) :
    (keys (merge t u)).Nodup := by
  induction u generalizing t with
  | nil => exact h
  | cons p u ih => exact ih (nodup_keys_put h p.1 p.2)

theorem forall_mem_merge {P : κ × β → Prop} {t u : Table κ β} (ht : ∀ p ∈ t, P p)
    (hu : ∀ p ∈ u, P p) : ∀ p ∈ merge t u, P p := by
  induction u generalizing t with
  | nil => exact ht
  | cons p u ih =>
    obtain ⟨hp, hu⟩ := List.forall_mem_cons.1 hu
    exact ih (forall_mem_put ht hp) hu

/-- Of two tables the second one counts. -/
theorem get?_merge {u : Table κ β} (hu : (keys u).Nodup) (k : κ) (t : Table κ β) :
    get? k (merge t u) = (get? k u).or (get? k t) := by
  induction u generalizing t with
  | nil => rfl
  | cons p u ih =>
    obtain ⟨a, b⟩ := p
    obtain ⟨hfirst, hrest⟩ := List.nodup_cons.1 hu
    have hmerge : merge t ((a, b) :: u) = merge (put a b t) u := rfl
    rw [hmerge, ih hrest, get?_put, get?]
    by_cases h : a = k
    · -- the key is not written again
      subst h
      rw [if_pos rfl, if_pos rfl, get?_eq_none_iff.2 hfirst, Option.none_or, Option.some_or]
    · rw [if_neg h, if_neg h]

theorem get?_erase (k k' : κ) (t : Table κ β) :
    get? k' (erase k t) = if k = k' then none else get? k' t := by
  induction t with
  | nil => rw [erase, List.filter_nil, get?, ite_self]
  | cons p rest ih =>
    obtain ⟨a, b⟩ := p
    rw [erase] at ih ⊢
    by_cases ha : a = k
    · rw [List.filter_cons_of_neg (by simp [ha]), ih, get?, ha]
      split <;> rfl
    · rw [List.filter_cons_of_pos (by simp [ha]), get?, get?, ih]
      by_cases hk : k = k'
      · rw [if_pos hk, if_pos hk, if_neg fun h => ha (h.trans hk.symm)]
      · rw [if_neg hk, if_neg hk]

theorem nodup_keys_erase {t : Table κ β} (h : (keys t).Nodup) (k : κ) : (keys (erase k t)).Nodup :=
  h.sublist (List.Sublist.map _ List.filter_sublist)

omit [DecidableEq κ] in
/-- Changing the values leaves the keys as they are. -/
theorem keys_map {γ : Type} (f : β → γ) (t : Table κ β) :
    keys (t.map fun p => (p.1, f p.2)) = keys t := List.map_map

theorem get?_map {γ : Type} (f : β → γ) (k : κ) (t : Table κ β) :
    get? k (t.map fun p => (p.1, f p.2)) = (get? k t).map f := by
  induction t with
  | nil => rfl
  | cons p rest ih =>
    rw [List.map_cons, get?, get?, ih]
    split <;> rfl

end Table

end VaultConsole
