import VaultConsole.Event.Call
import VaultConsole.Proofs.Json.RoundTrip

/-!
# What calls leave in a log

A call that logs an event may give its fields any values, among them what a user typed. The values go into
the message of the record as a document, the formatter reads the document back, and each value gets the line
of its key, on which no line feed is left. So the names alone decide what lines there are. The whole log is
those lines, and as none of them is empty, the empty lines between the blocks are the only ones.

* `LogCall.objectOf?_compact`: the message of a call is read as the document that was written.
* `LogCall.keys`, `LogCall.mem_keys`, `LogCall.keys_congr`: the keys that are shown.
* `LogCall.block_record`: the record of a call is shown as the block of the call.
* `LogCall.IsLog`: what calls leave in a log.
* `LogCall.isLog_texts`: **values cannot forge the structure of a log.**
-/

namespace VaultConsole

open Json (obstacle? Distinct)

/-! ## Documents of calls -/

namespace LogValue

mutual

/-- A value that is fit for a log has no key twice in an object, whatever keys had one text before. -/
theorem distinct_safe : (v : LogValue) → Distinct v.safe
  | null => .null
  | bool b => .bool b
  | int i => .int i
  | real x => .real x
  | text t => .text t
  | other words => .text words
  | sequence items => .array (distinct_safeItems items)
  | dictionary members =>
    .object (@Table.nodup_keys_merge _ _ _ [] List.nodup_nil _)
      (Table.forall_mem_merge (List.forall_mem_nil _) (distinct_safeMembers members))

theorem distinct_safeItems : (items : List LogValue) → ∀ item ∈ safeItems items, Distinct item
  | [] => List.forall_mem_nil _
  | item :: rest => List.forall_mem_cons.2 ⟨distinct_safe item, distinct_safeItems rest⟩

theorem distinct_safeMembers :
    (members : List (Text × LogValue)) → ∀ member ∈ safeMembers members, Distinct member.2
  | [] => List.forall_mem_nil _
  | (_, value) :: rest => List.forall_mem_cons.2 ⟨distinct_safe value, distinct_safeMembers rest⟩

end

end LogValue

namespace LogCall

variable {source key : Text} {c : LogCall}

/-- The members of the document of a call. -/
def members (c : LogCall) : Table Text Json :=
  Table.merge [("ts", .text c.moment.isoText), ("event", .text c.name)] c.safeFields

theorem document_eq (c : LogCall) : c.document = .object c.members := rfl

theorem keys_safeFields (c : LogCall) : Table.keys c.safeFields = Table.keys c.fields :=
  Table.keys_map LogValue.safe c.fields

theorem nodup_members (c : LogCall) : (Table.keys c.members).Nodup := by
  refine Table.nodup_keys_merge ?_ c.safeFields
  exact (by decide : [Text.ofString "ts", Text.ofString "event"].Nodup)

theorem distinct_document (c : LogCall) : Distinct c.document := by
  have hown : ∀ p ∈ [(Text.ofString "ts", Json.text c.moment.isoText), ("event", .text c.name)],
      Distinct p.2 :=
    List.forall_mem_cons.2 ⟨.text _, List.forall_mem_cons.2 ⟨.text _, List.forall_mem_nil _⟩⟩
  have hfields : ∀ p ∈ c.safeFields, Distinct p.2 := by
    intro p hp
    obtain ⟨field, -, rfl⟩ := List.mem_map.1 hp
    exact field.2.distinct_safe
  exact .object c.nodup_members (Table.forall_mem_merge hown hfields)

end LogCall

/-- An object is recognised in a message by its braces. -/
theorem Json.compact_object (members : Table Text Json) :
    (object members).compact.head? = some (CodePoint.ofChar '\x7b') ∧
      (object members).compact.getLast? = some (CodePoint.ofChar '\x7d') := by
  have htext : (object members).compact = textAt eventLayout 0 (object members) := rfl
  rw [htext]
  cases members with
  | nil => exact ⟨rfl, rfl⟩
  | cons member rest =>
    rw [textAt_object_cons, List.head?_cons, ← List.cons_append]
    refine ⟨rfl, ?_⟩
    simp only [← List.append_assoc, List.getLast?_concat]

namespace LogRecord

/-- Whether a key of a table is shown. -/
def hasValue (data : Table Text Json) (key : Text) : Bool :=
  match Table.get? key data with
  | none | some .null => false
  | some _ => true

theorem shownKeys_eq (event : Text) (data : Table Text Json) :
    shownKeys event data = (preferredKeys event).filter (hasValue data)
      ++ Text.sort ((Table.keys data).filter fun key =>
        !(preferredKeys event).contains key && hasValue data key) := rfl

end LogRecord

namespace LogCall

variable {source key : Text} {c : LogCall}

/-- **The message of a call is read as the document that was written.** -/
theorem objectOf?_compact (h : c.isWritten = true) :
    LogRecord.objectOf? c.document.compact = .ok (some c.members) := by
  have hclear : obstacle? Json.depthLimit c.document = none :=
    Json.obstacle?_eq_none_of_le c.room_le (Option.isNone_iff_eq_none.1 h)
  have hparse : Json.parse c.document.compact = .ok c.document := by
    have hread := Json.parse_write Json.isRead_eventLayout c.distinct_document
    rwa [hclear] at hread
  rw [document_eq] at hparse ⊢
  rw [LogRecord.objectOf?, if_pos (Json.compact_object c.members), hparse]

/-! ## Keys -/

/-- What a key has: the field of that name if there is one, else what every record has. -/
def given? (source key : Text) (c : LogCall) : Option LogValue :=
  (Table.get? key c.fields).or (Table.get? key
    [("ts", .text c.moment.isoText), ("level", .text c.level), ("logger", .text source)])

/-- The value that is shown for a key. -/
def value? (source key : Text) (c : LogCall) : Option LogValue :=
  (c.given? source key).filter (!·.isNull)

/-- The record of a call as a table. -/
def table (source : Text) (c : LogCall) : Table Text Json :=
  Table.merge [("level", .text c.level), ("logger", .text source)] c.members

/-- The table that the keys of a block are taken from. -/
def data (source : Text) (c : LogCall) : Table Text Json := Table.erase "event" (c.table source)

def keys (source : Text) (c : LogCall) : List Text := LogRecord.shownKeys c.name (c.data source)

theorem get?_data (source key : Text) (c : LogCall) :
    Table.get? key (c.data source) = (c.given? source key).map LogValue.safe := by
  have hfields : Table.get? key c.safeFields = (Table.get? key c.fields).map LogValue.safe :=
    Table.get?_map _ key c.fields
  have hnodup : (Table.keys c.safeFields).Nodup := c.keys_safeFields ▸ c.nodup
  rw [data, Table.get?_erase, table, Table.get?_merge c.nodup_members, members, Table.get?_merge hnodup, hfields,
    given?, Option.map_or]
  split
  · next hevent =>
    -- the name of the event is no key of its block, and no field can have taken its place
    have hnone : Table.get? key c.fields = none :=
      Table.get?_eq_none_iff.2 fun hmem => (c.unreserved key hmem).1 hevent.symm
    rw [hnone, ← hevent]
    rfl
  · next hevent =>
    -- the two tables that a record begins with are one, but for their order
    rw [Option.or_assoc]
    congr 1
    simp only [Table.get?, if_neg hevent]
    split
    · rfl
    · split
      · rfl
      · split <;> rfl

/-- A key is shown just if it has a value. -/
theorem hasValue_data : LogRecord.hasValue (c.data source) key = (c.value? source key).isSome := by
  rw [LogRecord.hasValue, get?_data, value?]
  cases c.given? source key with
  | none => rfl
  | some value => cases value <;> rfl

/-- The keys of the preferred order that are shown. -/
def leading (source : Text) (c : LogCall) : List Text :=
  (LogRecord.preferredKeys c.name).filter fun key => (c.value? source key).isSome

/-- The keys that follow them. -/
def others (source : Text) (c : LogCall) : List Text :=
  Text.sort ((Table.keys (c.data source)).filter fun key =>
    !(LogRecord.preferredKeys c.name).contains key && (c.value? source key).isSome)

theorem keys_eq (source : Text) (c : LogCall) : c.keys source = c.leading source ++ c.others source := by
  have hhas : LogRecord.hasValue (c.data source) = fun key => (c.value? source key).isSome :=
    funext fun _ => hasValue_data
  rw [keys, LogRecord.shownKeys_eq, hhas]
  rfl

theorem mem_leading : key ∈ c.leading source ↔
    key ∈ LogRecord.preferredKeys c.name ∧ (c.value? source key).isSome = true :=
  List.mem_filter

theorem mem_others : key ∈ c.others source ↔
    key ∉ LogRecord.preferredKeys c.name ∧ (c.value? source key).isSome = true := by
  have hkey : (c.value? source key).isSome = true → key ∈ Table.keys (c.data source) := by
    intro hvalue
    rw [← Table.isSome_get?_iff, get?_data, Option.isSome_map]
    exact Option.isSome_of_isSome_filter _ _ hvalue
  simp only [others, Text.mem_sort, List.mem_filter, Bool.and_eq_true, Bool.not_eq_true',
    List.contains_eq_mem, decide_eq_false_iff_not]
  exact ⟨fun h => h.2, fun h => ⟨hkey h.2, h⟩⟩

theorem mem_keys : key ∈ c.keys source ↔ (c.value? source key).isSome = true := by
  rw [keys_eq, List.mem_append, mem_leading, mem_others, ← or_and_right]
  exact and_iff_right (Classical.em _)

theorem nodup_preferredKeys (event : Text) : (LogRecord.preferredKeys event).Nodup := by
  unfold LogRecord.preferredKeys
  split_ifs <;> decide

theorem nodup_data (source : Text) (c : LogCall) : (Table.keys (c.data source)).Nodup := by
  refine Table.nodup_keys_erase (Table.nodup_keys_merge ?_ c.members) _
  exact (by decide : [Text.ofString "level", Text.ofString "logger"].Nodup)

theorem nodup_others (source : Text) (c : LogCall) : (c.others source).Nodup :=
  Text.nodup_sort ((c.nodup_data source).filter _)

theorem nodup_keys (source : Text) (c : LogCall) : (c.keys source).Nodup := by
  rw [keys_eq]
  exact ((nodup_preferredKeys c.name).filter _).append (c.nodup_others source) fun key hleading hother =>
    (mem_others.1 hother).1 (mem_leading.1 hleading).1

/-- **Which keys are shown, and in what order, does not hang on what their values are.** -/
theorem keys_congr {c' : LogCall} (hname : c'.name = c.name)
    (hvalue : ∀ key, (c'.value? source key).isSome = (c.value? source key).isSome) :
    c'.keys source = c.keys source := by
  have hleading : c'.leading source = c.leading source := by
    unfold leading
    rw [hname]
    exact List.filter_congr fun key _ => hvalue key
  -- both are sorted and have the same members, none of them twice
  have hperm : (c'.others source).Perm (c.others source) := by
    refine (List.perm_ext_iff_of_nodup (c'.nodup_others source) (c.nodup_others source)).2 fun key => ?_
    rw [mem_others, mem_others, hname, hvalue]
  have hothers : c'.others source = c.others source :=
    hperm.eq_of_pairwise (fun a b _ _ => Text.le_antisymm a b) (Text.pairwise_sort _) (Text.pairwise_sort _)
  rw [keys_eq, keys_eq, hleading, hothers]

/-! ## Blocks -/

/-- The line of a key. -/
def lineOf (source key : Text) (c : LogCall) : Text :=
  key ++ ": " ++ LogRecord.valueText ((c.value? source key).getD .null).safe

/-- The lines of the block of a call. -/
def block (source : Text) (c : LogCall) : List Text :=
  ("=== " ++ c.name ++ " ===") :: (c.keys source).map fun key => c.lineOf source key

/-- The name of the event and those of the fields are each on one line. -/
structure IsPlain (c : LogCall) : Prop where
  name : Text.newline ∉ c.name
  fields : ∀ key ∈ Table.keys c.fields, Text.newline ∉ key

theorem newline_not_mem_valueText (value : Json) : Text.newline ∉ LogRecord.valueText value :=
  Text.not_mem_replace (by decide) _

theorem IsPlain.newline_not_mem_key (h : c.IsPlain) (hkey : key ∈ c.keys source) : Text.newline ∉ key := by
  have hgiven : (c.given? source key).isSome = true := Option.isSome_of_isSome_filter _ _ (mem_keys.1 hkey)
  rw [given?, Option.isSome_or, Bool.or_eq_true, Table.isSome_get?_iff, Table.isSome_get?_iff] at hgiven
  -- a key that is shown names a field, or is one of the three that every record has
  rcases hgiven with hfield | hown
  · exact h.fields key hfield
  · have hplain : ∀ k ∈ [Text.ofString "ts", Text.ofString "level", Text.ofString "logger"],
        Text.newline ∉ k := by decide
    exact hplain key hown

/-- Every line of a block is one line. -/
theorem IsPlain.newline_not_mem_line (h : c.IsPlain) : ∀ line ∈ c.block source, Text.newline ∉ line := by
  have hhead : Text.newline ∉ Text.ofString "=== " ∧ Text.newline ∉ Text.ofString " ===" ∧
      Text.newline ∉ Text.ofString ": " := by decide
  refine List.forall_mem_cons.2 ⟨?_, fun line hline => ?_⟩
  · simp only [List.mem_append, not_or]
    exact ⟨⟨hhead.1, h.name⟩, hhead.2.1⟩
  · obtain ⟨key, hkey, rfl⟩ := List.mem_map.1 hline
    simp only [lineOf, List.mem_append, not_or]
    exact ⟨⟨h.newline_not_mem_key hkey, hhead.2.2⟩, newline_not_mem_valueText _⟩

/-- No line of a block is empty. -/
theorem nil_not_mem_block (source : Text) (c : LogCall) : [] ∉ c.block source := by
  intro h
  rcases List.mem_cons.1 h with hhead | hline
  · exact absurd hhead (by simp [Text.ofString])
  · obtain ⟨key, -, hline⟩ := List.mem_map.1 hline
    exact absurd hline (by simp [lineOf, Text.ofString])

theorem IsPlain.lines_block (h : c.IsPlain) : Text.lines (Text.unlines (c.block source)) = c.block source :=
  Text.splitOn_joinWith (List.cons_ne_nil _ _) h.newline_not_mem_line

theorem get?_event (source : Text) (c : LogCall) :
    Table.get? (Text.ofString "event") (c.table source) = some (.text c.name) := by
  have hnodup : (Table.keys c.safeFields).Nodup := c.keys_safeFields ▸ c.nodup
  have hnone : Table.get? (Text.ofString "event") c.safeFields = none :=
    Table.get?_eq_none_iff.2 fun hmem => (c.unreserved _ (c.keys_safeFields ▸ hmem)).1 rfl
  rw [table, Table.get?_merge c.nodup_members, members, Table.get?_merge hnodup, hnone]
  rfl

/-- **The record of a call is shown as the block of the call.** -/
theorem block_record (h : c.isWritten = true) :
    (c.record source).block = .ok (Text.unlines (c.block source)) := by
  have hdata : (c.record source).data = .ok (c.table source) := by
    simp only [record, LogRecord.data, objectOf?_compact h]
    rfl
  -- where a key has no value both sides show a null, but such a key is not listed
  have hline : ∀ key, key ++ ": " ++ LogRecord.valueText ((Table.get? key (c.data source)).getD .null) =
      c.lineOf source key := by
    intro key
    rw [get?_data, lineOf, value?]
    cases c.given? source key with
    | none => rfl
    | some value => cases value <;> rfl
  have hbody : (LogRecord.shownKeys c.name (c.data source)).map (fun key =>
      key ++ ": " ++ LogRecord.valueText ((Table.get? key (c.data source)).getD .null)) =
        (c.keys source).map fun key => c.lineOf source key :=
    List.map_congr_left fun key _ => hline key
  simp only [LogRecord.block, hdata, bind, Except.bind, get?_event, pure, Except.pure]
  exact congrArg (fun ls => Except.ok (Text.unlines ls))
    ((List.append_nil _).trans (congrArg (("=== " ++ c.name ++ " ===") :: ·) hbody))

/-- What a head begins with. -/
def headMark : Text := "=== "

/-- A line is like a head only if its key is. -/
theorem headMark_prefix_key (h : headMark <+: c.lineOf source key) : headMark <+: key := by
  have hline : c.lineOf source key = key ++ CodePoint.ofChar ':' :: (Text.ofString " " ++
      LogRecord.valueText ((c.value? source key).getD .null).safe) := List.append_assoc key _ _
  exact Text.prefix_of_not_mem (hline ▸ h) (by decide)

/-! ## Sequences of calls -/

/-- The texts of calls whose documents can be written. -/
def shown (source : Text) : List LogCall → List Text
  | [] => []
  | c :: rest => Text.unlines (c.block source) ::
      rest.map fun c => Text.newline :: Text.unlines (c.block source)

/-- Blocks with one empty line in front of each but the first. -/
def apart : List (List Text) → List (List Text)
  | [] => []
  | first :: rest => first :: rest.map ([] :: ·)

theorem filterMap_record? (source : Text) (calls : List LogCall) :
    calls.filterMap (record? source) = (calls.filter isWritten).map (record source) := by
  induction calls with
  | nil => rfl
  | cons c calls ih =>
    rw [List.filterMap_cons, record?, ih]
    cases hwritten : c.isWritten with
    | true => rw [List.filter_cons_of_pos hwritten]; rfl
    | false => rw [List.filter_cons_of_neg (by simp [hwritten])]; rfl

theorem text_record (h : c.isWritten = true) (isFirst : Bool) :
    (c.record source).text isFirst = .ok (if isFirst then Text.unlines (c.block source)
      else Text.newline :: Text.unlines (c.block source)) := by
  rw [LogRecord.text, block_record h]
  rfl

/-- Once a text was made, every further one has a line in front. -/
theorem texts_false {calls : List LogCall} (h : ∀ c ∈ calls, c.isWritten = true) :
    LogRecord.texts false (calls.map (record source)) =
      calls.map fun c => .ok (Text.newline :: Text.unlines (c.block source)) := by
  induction calls with
  | nil => rfl
  | cons c calls ih =>
    obtain ⟨hc, hcalls⟩ := List.forall_mem_cons.1 h
    rw [List.map_cons, List.map_cons, LogRecord.texts, text_record hc, ← ih hcalls]
    rfl

/-- **Every record gets its text.** -/
theorem texts_true {calls : List LogCall} (h : ∀ c ∈ calls, c.isWritten = true) :
    LogRecord.texts true (calls.map (record source)) = (shown source calls).map .ok := by
  cases calls with
  | nil => rfl
  | cons c calls =>
    obtain ⟨hc, hcalls⟩ := List.forall_mem_cons.1 h
    -- the first text clears the flag for all that follow
    have hrest := @texts_false source calls hcalls
    rw [List.map_cons, LogRecord.texts, text_record hc, shown, List.map_cons, List.map_map]
    exact congrArg _ hrest

theorem lines_shown {calls : List LogCall} (hplain : ∀ c ∈ calls, c.IsPlain) :
    (shown source calls).map Text.lines = apart (calls.map (block source)) := by
  cases calls with
  | nil => rfl
  | cons c calls =>
    obtain ⟨hc, hcalls⟩ := List.forall_mem_cons.1 hplain
    rw [shown, List.map_cons, List.map_cons, apart, hc.lines_block, List.map_map, List.map_map]
    refine congrArg _ (List.map_congr_left fun c hmem => ?_)
    exact congrArg ([] :: ·) (hcalls c hmem).lines_block

theorem flatten_apart (blocks : List (List Text)) : (apart blocks).flatten = [[]].intercalate blocks := by
  induction blocks with
  | nil => rfl
  | cons first rest ih =>
    cases rest with
    | nil => rfl
    | cons next more =>
      rw [List.intercalate_cons_cons, ← ih]
      simp [apart]

/-- **The empty lines of a log are those between its blocks.** -/
theorem splitOn_shown {calls : List LogCall} (hne : calls ≠ []) (hplain : ∀ c ∈ calls, c.IsPlain) :
    (Text.lines (Text.unlines (shown source calls))).splitOn [] = calls.map (block source) := by
  have hshown : shown source calls ≠ [] := by
    obtain ⟨c, rest, rfl⟩ := List.exists_cons_of_ne_nil hne
    exact List.cons_ne_nil _ _
  have hfull : ∀ lines ∈ calls.map (block source), [] ∉ lines := by
    intro lines hlines
    obtain ⟨c, -, rfl⟩ := List.mem_map.1 hlines
    exact c.nil_not_mem_block source
  calc
    _ = ((shown source calls).flatMap Text.lines).splitOn [] :=
      congrArg (List.splitOn []) (Text.splitOn_joinWith_flatMap hshown)
    _ = ([[]].intercalate (calls.map (block source))).splitOn [] := by
      rw [List.flatMap_def, lines_shown hplain, flatten_apart]
    _ = calls.map (block source) := List.splitOn_intercalate [] hfull (by simpa using hne)

/-- What calls leave in a log. -/
structure IsLog (source : Text) (calls : List LogCall) (texts : List (Except Failure Text)) : Prop where
  /-- Every record becomes the lines of its block, all but the first one after one empty line. -/
  lines : texts.map (Except.map Text.lines) =
    (apart ((calls.filter isWritten).map (block source))).map .ok
  /-- A block has no key twice. -/
  once : ∀ c ∈ calls, (c.keys source).Nodup
  /-- It has just the keys that have a value. -/
  complete : ∀ c ∈ calls, ∀ key, key ∈ c.keys source ↔ (c.value? source key).isSome = true
  /-- Those of the preferred order come first in that order, and the others follow, sorted. -/
  ordered : ∀ c ∈ calls, ∃ others,
    c.keys source = (LogRecord.preferredKeys c.name).filter (fun key => (c.value? source key).isSome)
      ++ others ∧
    others.Pairwise (fun a b => Text.le a b = true) ∧ ∀ key ∈ others, key ∉ LogRecord.preferredKeys c.name
  /-- What the values are does not change the keys, and so not the number of lines. -/
  steady : ∀ c ∈ calls, ∀ c' : LogCall, c'.name = c.name →
    (∀ key, (c'.value? source key).isSome = (c.value? source key).isSome) → c'.keys source = c.keys source
  /-- No line but the first of a block begins like a head, unless its key does. -/
  heads : ∀ c ∈ calls, ∀ key ∈ c.keys source, headMark <+: c.lineOf source key → headMark <+: key
  /-- Who divides the log at its empty lines finds the blocks, and no others. -/
  blocks : calls.filter isWritten ≠ [] →
    (Text.lines (Text.unlines (texts.filterMap Except.toOption))).splitOn [] =
      (calls.filter isWritten).map (block source)

/-- **Values cannot forge the structure of a log.** -/
theorem isLog_texts (source : Text) (calls : List LogCall) (hplain : ∀ c ∈ calls, c.IsPlain) :
    IsLog source calls (LogRecord.texts true (calls.filterMap (record? source))) := by
  have hwritten : ∀ c ∈ calls.filter isWritten, c.IsPlain := fun c hc => hplain c (List.mem_of_mem_filter hc)
  have htexts : ((shown source (calls.filter isWritten)).map (@Except.ok Failure Text)).filterMap
      Except.toOption = shown source (calls.filter isWritten) := by
    rw [List.filterMap_map]
    exact List.filterMap_some
  rw [filterMap_record?, texts_true fun c hc => (List.mem_filter.1 hc).2]
  exact {
    lines := by
      rw [← lines_shown hwritten, List.map_map, List.map_map]
      rfl
    once := fun c _ => c.nodup_keys source
    complete := fun c _ key => mem_keys
    ordered := fun c _ => ⟨c.others source, c.keys_eq source, Text.pairwise_sort _,
      fun key hkey => (mem_others.1 hkey).1⟩
    steady := fun c _ c' hname hvalue => keys_congr hname hvalue
    heads := fun c _ key _ hhead => headMark_prefix_key hhead
    blocks := fun hne => by rw [htexts, splitOn_shown hne hwritten] }

/-- A call whose values hold what looks like another block. -/
def sampleForging : LogCall where
  level := "ERROR"
  name := "command_error"
  moment := ⟨2024, 2, 29, 12, 0, 0, 0, 0, by decide⟩
  fields := [("flags", .dictionary [("name\n", .sequence [.text "a\n\n=== app_stop ===", .null])]),
    ("sub_verb", .null), ("error", .text "gone\n\n=== app_stop ===\nreason: quit")]
  room := 3
  nodup := by decide
  unreserved := by decide
  room_le := by decide

/-- A call after it. -/
def sampleNext : LogCall where
  level := "INFO"
  name := "app_stop"
  moment := ⟨2024, 2, 29, 12, 0, 1, 0, 0, by decide⟩
  fields := [("ts", .null), ("reason", .other "=== app_start ===\n")]
  room := 1
  nodup := by decide
  unreserved := by decide
  room_le := by decide

theorem isLog_sampleForging :
    (∀ c ∈ [sampleForging, sampleNext], c.IsPlain) ∧
    [sampleForging, sampleNext].filter isWritten = [sampleForging, sampleNext] ∧
    (sampleForging.value? "vaultterm" "sub_verb").isSome = false ∧
    sampleForging.lineOf "vaultterm" "error" = "error: gone\\n\\n=== app_stop ===\\nreason: quit" ∧
    IsLog "vaultterm" [sampleForging, sampleNext]
      (LogRecord.texts true ([sampleForging, sampleNext].filterMap (record? "vaultterm"))) := by
  have hplain : ∀ c ∈ [sampleForging, sampleNext], c.IsPlain :=
    List.forall_mem_cons.2 ⟨⟨by decide, by decide⟩,
      List.forall_mem_cons.2 ⟨⟨by decide, by decide⟩, List.forall_mem_nil _⟩⟩
  exact ⟨hplain, rfl, rfl, rfl, isLog_texts "vaultterm" [sampleForging, sampleNext] hplain⟩

end LogCall

end VaultConsole
