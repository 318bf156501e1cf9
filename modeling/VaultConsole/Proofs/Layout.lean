import VaultConsole.Proofs.Profile.Paths
import VaultConsole.Proofs.Showing

/-!
# How a shown entry is laid out

The first column of a shown entry is for the sign of its kind. What was typed or stored may hold line
feeds, and still nothing of it comes to stand in that column: below the first line, a line is indented or
empty. The layout loses nothing. The lines of the message and those of the body are found again in it.

* `Snapshot.bodyText`: the records of an entry on their own, as text.
* `Snapshot.LaidOut`: a message and a body under the sign of a kind.
* `Snapshot.laidOut_layOut`: a text is laid out whatever the message and the body hold.
* `Session.laidOut_showEntry`: **every entry that is shown is laid out**, over any store.
-/

namespace VaultConsole

namespace Snapshot

variable {kind : EntryKind} {e : Entry} {body t first line : Text} {rest : List Text}

/-- The records of an entry on their own. An entry without records has an empty body. -/
def bodyText (s : Snapshot) (e : Entry) : Except Failure Text :=
  match e.payload with
  | none => .ok []
  | some p => s.payloadText p

/-- The lines of a body. An empty body has none. -/
def bodyLines (body : Text) : List Text := if body.isEmpty then [] else body.lines

/-- A message and a body under the sign of a kind. -/
def layOut (e : Entry) (body : Text) : Text :=
  Text.unlines ((sign e.kind ++ " " ++ e.message.lines.headD []) ::
    (e.message.lines.drop 1 ++ bodyLines body).map below)

/-- An entry is shown by laying out its body. -/
theorem entryText_eq (s : Snapshot) (e : Entry) :
    s.entryText e = do return layOut e (← s.bodyText e) := by
  unfold entryText bodyText layOut bodyLines
  cases e.payload <;> rfl

/-- A text begins with the sign of a kind and with a blank. Its further lines are indented or empty.
Without that sign and without the indent, its lines are those of the message and then those of the body. -/
structure LaidOut (e : Entry) (body t first : Text) (rest : List Text) : Prop where
  lines : t.lines = (sign e.kind ++ " " ++ first) :: rest
  below : ∀ line ∈ rest, line = [] ∨ indent <+: line
  content : first :: rest.map (·.drop indent.length) = e.message.lines ++ bodyLines body

/-- A sign is one code point, and no blank. -/
theorem exists_sign (kind : EntryKind) : ∃ c, sign kind = [c] ∧ c ≠ CodePoint.ofChar ' ' := by
  cases kind <;> exact ⟨_, rfl, by decide⟩

theorem sign_injective {kind' : EntryKind} (h : sign kind = sign kind') : kind = kind' := by
  cases kind <;> cases kind' <;> first | rfl | exact absurd h (by decide)

/-- No sign stands at the beginning of a further line. -/
theorem LaidOut.not_sign (h : LaidOut e body t first rest) (hline : line ∈ rest) (kind : EntryKind) :
    ¬ sign kind <+: line := by
  obtain ⟨c, hc, hblank⟩ := exists_sign kind
  rw [hc]
  intro hsign
  rcases h.below line hline with rfl | ⟨tail, rfl⟩
  · exact absurd (List.prefix_nil.1 hsign) (List.cons_ne_nil c [])
  · exact hblank (List.cons_prefix_cons.1 hsign).1

/-- What is shown tells the kind and the lines of what it is shown for. -/
theorem LaidOut.unique {e' : Entry} {body' first' : Text} {rest' : List Text}
    (h : LaidOut e body t first rest) (h' : LaidOut e' body' t first' rest') :
    e.kind = e'.kind ∧ e.message.lines ++ bodyLines body = e'.message.lines ++ bodyLines body' := by
  obtain ⟨hfirst, hrest⟩ := List.cons.inj (h.lines.symm.trans h'.lines)
  have hkind : sign e.kind = sign e'.kind := by
    obtain ⟨c, hc, -⟩ := exists_sign e.kind
    obtain ⟨c', hc', -⟩ := exists_sign e'.kind
    rw [hc, hc'] at hfirst ⊢
    rw [(List.cons.inj hfirst).1]
  rw [hkind, List.append_cancel_left_eq] at hfirst
  exact ⟨sign_injective hkind, by rw [← h.content, ← h'.content, hfirst, hrest]⟩

/-! ## Laying out -/

theorem below_cases (line : Text) : below line = [] ∨ indent <+: below line := by
  unfold below
  split
  · exact .inl rfl
  · exact .inr (List.prefix_append indent line)

/-- The indent can be taken off again. -/
theorem drop_below (line : Text) : (below line).drop indent.length = line := by
  unfold below
  split
  · next h => rw [List.isEmpty_iff.1 h, List.drop_nil]
  · exact List.drop_left

theorem newline_not_mem_below (h : Text.newline ∉ line) : Text.newline ∉ below line := by
  unfold below
  split
  · exact List.not_mem_nil
  · rw [List.mem_append, not_or]
    exact ⟨by decide, h⟩

theorem newline_not_mem_bodyLines (h : line ∈ bodyLines body) : Text.newline ∉ line := by
  unfold bodyLines at h
  split at h
  · exact absurd h List.not_mem_nil
  · exact Text.not_mem_of_mem_splitOn h

/-- **A text is laid out**, whatever the message and the body hold. -/
theorem laidOut_layOut (e : Entry) (body : Text) :
    ∃ first rest, LaidOut e body (layOut e body) first rest := by
  obtain ⟨first, more, hmessage⟩ : ∃ first more, e.message.lines = first :: more :=
    List.exists_cons_of_ne_nil (Text.splitOn_ne_nil _ e.message)
  have hpiece : ∀ line ∈ first :: more, Text.newline ∉ line := fun line hline =>
    Text.not_mem_of_mem_splitOn (hmessage ▸ hline)
  refine ⟨first, (more ++ bodyLines body).map below, ?_, fun line hline => ?_, ?_⟩
  · have hsign : Text.newline ∉ sign e.kind ++ " " := by cases e.kind <;> decide
    unfold layOut
    rw [hmessage]
    refine Text.splitOn_joinWith (List.cons_ne_nil _ _) fun line hline => ?_
    rcases List.mem_cons.1 hline with rfl | hline
    · rw [List.mem_append, not_or]
      exact ⟨hsign, hpiece first List.mem_cons_self⟩
    · obtain ⟨whole, hwhole, rfl⟩ := List.mem_map.1 hline
      rcases List.mem_append.1 hwhole with hwhole | hwhole
      · exact newline_not_mem_below (hpiece whole (List.mem_cons_of_mem first hwhole))
      · exact newline_not_mem_below (newline_not_mem_bodyLines hwhole)
  · obtain ⟨whole, -, rfl⟩ := List.mem_map.1 hline
    exact below_cases whole
  · have hlines : (more ++ bodyLines body).map ((·.drop indent.length) ∘ below) = more ++ bodyLines body :=
      List.map_id'' drop_below _
    rw [List.map_map, hlines, hmessage, List.cons_append]

end Snapshot

namespace Session

/-- The records of an entry on their own, as they are now. -/
def showBody (zone : Zone) (e : Entry) : Act Failure Session Text := do
  match e.payload with
  | none => return []
  | some p => Act.settle ((← snapshot zone).payloadText p)

/-- An entry is shown by laying out its records, over whatever store there is. -/
theorem showEntry_eq (zone : Zone) (e : Entry) :
    showEntry zone e = do return Snapshot.layOut e (← showBody zone e) := by
  funext s
  unfold showEntry showBody
  cases hpayload : e.payload with
  | none =>
    show Act.settle (Snapshot.entryText _ e) s = _
    rw [Snapshot.entryText_eq]
    unfold Snapshot.bodyText
    rw [hpayload]
    rfl
  | some p =>
    show (snapshot zone >>= fun view => Act.settle (view.entryText e)) s =
      ((snapshot zone >>= fun view => Act.settle (view.payloadText p)) >>= fun body =>
        pure (Snapshot.layOut e body)) s
    rw [Act.run_bind, Act.run_bind, Act.run_bind]
    rcases snapshot zone s with ⟨failure | view, s'⟩
    · rfl
    · simp only [Act.after_ok, Act.run_settle, Snapshot.entryText_eq, Snapshot.bodyText, hpayload]
      cases view.payloadText p <;> rfl

/-- **Every entry that is shown is laid out**: the sign of its kind is the only thing in the first column,
and what is left without it and without the indent are the lines of the message and those of the records,
as these are shown on their own. -/
theorem laidOut_showEntry {zone : Zone} {e : Entry} {s s' : Session} {t : Text}
    (h : showEntry zone e s = (.ok t, s')) :
    ∃ body first rest, showBody zone e s = (.ok body, s') ∧
      Snapshot.LaidOut e body t first rest := by
  rw [showEntry_eq] at h
  obtain ⟨body, s₁, hbody, hrun⟩ := Act.exists_of_run_bind h
  obtain ⟨ht, rfl⟩ := Prod.mk.inj hrun
  cases ht
  obtain ⟨first, rest, hlaid⟩ := Snapshot.laidOut_layOut e body
  exact ⟨body, first, rest, hbody, hlaid⟩

/-- A vault of which the name and the description try to come to stand in the first column. -/
def sampleForger : Vault :=
  { id := "v", name := "Home\n\n? Sure?", description := "\ni", created := Store.sampleMoment
    modified := Store.sampleMoment }

@[inherit_doc sampleForger] def sampleForgery : Session :=
  Session.bare ⟨World.fresh 0 [], Store.inMemory ⟨[sampleForger], []⟩⟩

/-- An entry that shows the vault below a message of three lines. -/
def sampleForged : Entry := .found "Found\n\n1 vault:" (.vaultList ["v"])

/-- What is shown for this entry. -/
def sampleForgedText : Text :=
  Text.unlines [Snapshot.sign .success ++ " Found", "", "  1 vault:", "  [1] Home", "", "  ? Sure?", "    ",
    "  i", "    Created: 1970-01-01"]

theorem laidOut_sampleForgery :
    showEntry .universal sampleForged sampleForgery = (.ok sampleForgedText, sampleForgery) ∧
      ∃ body first rest, showBody .universal sampleForged sampleForgery = (.ok body, sampleForgery) ∧
        Snapshot.LaidOut sampleForged body sampleForgedText first rest := by
  have hshown : showEntry .universal sampleForged sampleForgery = (.ok sampleForgedText, sampleForgery) :=
    Prod.ext (by decide +kernel) rfl
  exact ⟨hshown, laidOut_showEntry hshown⟩

end Session

end VaultConsole
