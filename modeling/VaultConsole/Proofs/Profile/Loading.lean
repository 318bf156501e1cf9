import VaultConsole.Profile.File
import VaultConsole.Proofs.Profile.Paths

/-!
# Loading a profile

A profile file is missing, or its bytes are read: as a text, as a document, as the members of a profile,
as paths and numbers. What is wrong with the members is told as such. What is wrong with the bytes, with
a number, or with a path beyond that passes through as the failure that it is, and a delay that is no
finite number is taken as it is.

* `Profile.IsUsable`: profiles that the program can work with.
* `Profile.Documented`: how loading may end.
* `Profile.Fields.Work`, `Profile.documented_ofMembers_iff`: members of which a usable profile is made.
* `Profile.Answerable`: bytes that are loaded, or told to be none of a profile.
* `Profile.documented_load_iff`: **when loading ends as it may.**
-/

namespace VaultConsole

namespace Binary64

/-- A number that is neither an infinity nor none at all. -/
def IsFinite (x : Binary64) : Prop := ∃ negative biased fraction, x = .finite negative biased fraction

instance (x : Binary64) : Decidable x.IsFinite :=
  match x with
  | .nan => .isFalse (by rintro ⟨_, _, _, h⟩; cases h)
  | .infinite _ => .isFalse (by rintro ⟨_, _, _, h⟩; cases h)
  | .finite n b f => .isTrue ⟨n, b, f, rfl⟩

/-- A rounded number has the sign that it is given. -/
theorem ofRatio_cases (negative : Bool) (num den : Nat) :
    ofRatio negative num den = .infinite negative ∨
      ∃ biased fraction, ofRatio negative num den = .finite negative biased fraction := by
  have hscaled : ∀ whole exponent, ofScaled negative whole exponent = .infinite negative ∨
      ∃ biased fraction, ofScaled negative whole exponent = .finite negative biased fraction := by
    intro whole exponent
    unfold ofScaled
    simp only
    split
    · exact .inr ⟨_, _, rfl⟩
    · split <;> split
      · exact .inr ⟨_, _, rfl⟩
      · exact .inl rfl
      · exact .inr ⟨_, _, rfl⟩
      · exact .inl rfl
  unfold ofRatio
  split
  · exact .inr ⟨_, _, rfl⟩
  · exact hscaled _ _

/-- A whole number that is not negative is nearest to a number that is not negative either. -/
theorem isFinite_of_ofInt? {i : Int} {x : Binary64} (hi : 0 ≤ i) (h : ofInt? i = some x) :
    x.IsFinite ∧ x.isNegative = false := by
  have hsign : decide (i < 0) = false := decide_eq_false (by omega)
  unfold ofInt? at h
  rw [hsign] at h
  rcases ofRatio_cases false i.natAbs 1 with hrun | ⟨biased, fraction, hrun⟩ <;> rw [hrun] at h <;> cases h
  exact ⟨⟨false, biased, fraction, rfl⟩, rfl⟩

end Binary64

namespace Profile

/-- A profile that the program can work with: a user with a name, absolute paths, and a delay that can
be waited for. -/
structure IsUsable (p : Profile) : Prop where
  username : p.username ≠ []
  dataPath : (Path.parse p.dataPath).isAbsolute = true
  logsDir : ∀ dir, p.logsDir = some dir → (Path.parse dir).isAbsolute = true
  finite : p.actionDelay.IsFinite
  delay : p.actionDelay.isNegative = false

/-- A usable profile, or a failure because of a missing file or of what is configured. -/
def Documented : Except Failure Profile → Prop
  | .ok p => p.IsUsable
  | .error failure => failure.kind = .fileMissing ∨ failure.kind = .config

theorem documented_of_config {failure : Failure} (h : failure.kind = .config) :
    Documented (.error failure) := .inr h

theorem not_documented {failure : Failure} (h : Surroundings.IsUnreachable failure) :
    ¬ Documented (.error failure) := by
  rintro (hkind | hkind) <;> rcases h with h | h | h <;> rw [h] at hkind <;> cases hkind

/-! ## Checking members -/

/-- What the members of a profile say. -/
structure Fields where
  username : Text
  dataPath : Text
  logsDir : Option Text
  delay : Option Json

/-- Whether there is a directory for run logs, and which. -/
def LogsAt (members : Table Text Json) : Option Text → Prop
  | some dir => Table.get? ("logs_dir" : Text) members = some (.text dir)
  | none => Table.get? ("logs_dir" : Text) members = none ∨
      Table.get? ("logs_dir" : Text) members = some .null

/-- What `check` asks of members that say something. -/
structure Checked (members : Table Text Json) (f : Fields) : Prop where
  username : Table.get? ("username" : Text) members = some (.text f.username)
  named : f.username ≠ []
  dataPath : Table.get? ("data_path" : Text) members = some (.text f.dataPath)
  logsDir : LogsAt members f.logsDir
  delay : Table.get? ("action_delay" : Text) members = f.delay
  number : ∀ value, f.delay = some value → checkDelay value = .ok ()

theorem checkText_cases (members : Table Text Json) (key : Text) :
    checkText members key = .error (.profileFieldEmpty key) ∨
      ∃ t, checkText members key = .ok () ∧ Table.get? key members = some (.text t) ∧ t ≠ [] := by
  unfold checkText
  split
  · next t ht =>
    split
    · exact .inl rfl
    · next hne => exact .inr ⟨t, rfl, ht, by simpa using hne⟩
  · exact .inl rfl

theorem kind_of_checkDelay {value : Json} {failure : Failure} (h : checkDelay value = .error failure) :
    failure.kind = .config := by
  unfold checkDelay at h
  split at h
  · split at h <;> cases h
    rfl
  · split at h <;> cases h
    rfl
  · cases h
    rfl

/-- The last thing that is asked of members is that a delay is fit to be one. -/
theorem checkDelay_cases (members : Table Text Json) :
    let rest : Except Failure (Table Text Json) :=
      match Table.get? ("action_delay" : Text) members with
      | none => pure members
      | some delay => do
        checkDelay delay
        return members
    (∃ failure, rest = .error failure ∧ failure.kind = .config) ∨
      (rest = .ok members ∧ ∀ value, Table.get? ("action_delay" : Text) members = some value →
        checkDelay value = .ok ()) := by
  cases hget : Table.get? ("action_delay" : Text) members with
  | none => exact .inr ⟨rfl, fun value h => by cases h⟩
  | some delay =>
    simp only
    cases hdelay : checkDelay delay with
    | error failure => exact .inl ⟨failure, rfl, kind_of_checkDelay hdelay⟩
    | ok _ =>
      refine .inr ⟨rfl, fun value h => ?_⟩
      cases h
      exact hdelay

/-- A document is refused for what is configured, or its members say what is asked for. -/
theorem check_cases (value : Json) :
    (∃ failure, check value = .error failure ∧ failure.kind = .config) ∨
      ∃ members f, check value = .ok members ∧ Checked members f := by
  cases value with
  | object members =>
    unfold check
    simp only
    split
    · rcases checkText_cases members "username" with hname | ⟨username, hname, hget, hnamed⟩
      · rw [hname]
        exact .inl ⟨_, rfl, rfl⟩
      rcases checkText_cases members "data_path" with hpath | ⟨dataPath, hpath, hdata, -⟩
      · rw [hname, hpath]
        exact .inl ⟨_, rfl, rfl⟩
      rw [hname, hpath]
      have hchecked : ∀ logsDir, LogsAt members logsDir →
          (∀ value, Table.get? ("action_delay" : Text) members = some value →
            checkDelay value = .ok ()) →
          Checked members
            ⟨username, dataPath, logsDir, Table.get? ("action_delay" : Text) members⟩ :=
        fun _ hlogs hnumber => ⟨hget, hnamed, hdata, hlogs, rfl, hnumber⟩
      have hrest := checkDelay_cases members
      split
      · next hlogs =>
        exact hrest.imp id fun h => ⟨members, _, h.1, hchecked none (.inl hlogs) h.2⟩
      · next hlogs =>
        exact hrest.imp id fun h => ⟨members, _, h.1, hchecked none (.inr hlogs) h.2⟩
      · rcases checkText_cases members "logs_dir" with hdir | ⟨dir, hdir, hlogs, -⟩
        · rw [hdir]
          exact .inl ⟨_, rfl, rfl⟩
        · rw [hdir]
          exact hrest.imp id fun h => ⟨members, _, h.1, hchecked (some dir) hlogs h.2⟩
    · exact .inl ⟨_, rfl, rfl⟩
  | _ => exact .inl ⟨_, rfl, rfl⟩

/-! ## Making a profile of members -/

/-- The code point zero stands somewhere in a text. -/
def HasZero (t : Text) : Prop := ∃ c ∈ t, c.val = 0

theorem not_hasZero_iff {t : Text} : ¬ HasZero t ↔ ∀ c ∈ t, c.val ≠ 0 := by
  simp [HasZero]

/-- A delay becomes a finite number of seconds. -/
def DelayWorks : Option Json → Prop
  | some (.int i) => (Binary64.ofInt? i).isSome = true
  | some (.real x) => x.IsFinite
  | _ => True

/-- The delay of a profile. -/
def delayOf : Option Json → Except Failure Binary64
  | none => .ok usualDelay
  | some value => seconds value

/-- A delay that works is a number of seconds that can be waited for. -/
theorem delayOf_of_works {delay : Option Json} (hnumber : ∀ value, delay = some value →
    checkDelay value = .ok ()) (h : DelayWorks delay) :
    ∃ x, delayOf delay = .ok x ∧ x.IsFinite ∧ x.isNegative = false := by
  cases delay with
  | none => exact ⟨usualDelay, rfl, by decide +kernel, by decide +kernel⟩
  | some value =>
    have hchecked := hnumber value rfl
    unfold checkDelay at hchecked
    split at hchecked
    · next i =>
      split at hchecked
      · cases hchecked
      · next hi =>
        obtain ⟨x, hx⟩ := Option.isSome_iff_exists.1 h
        refine ⟨x, ?_, Binary64.isFinite_of_ofInt? (by omega) hx⟩
        simp only [delayOf, seconds, hx]
    · next x =>
      split at hchecked
      · cases hchecked
      · next hx => exact ⟨x, rfl, h, by simpa using hx⟩
    · cases hchecked

/-- One that does not is a whole number that is too large, or becomes no finite number. -/
theorem delayOf_of_not_works {delay : Option Json} (hnumber : ∀ value, delay = some value →
    checkDelay value = .ok ()) (h : ¬ DelayWorks delay) :
    delayOf delay = .error .numberTooLarge ∨ ∃ x, delayOf delay = .ok x ∧ ¬ x.IsFinite := by
  cases delay with
  | none => exact absurd trivial h
  | some value =>
    have hchecked := hnumber value rfl
    unfold checkDelay at hchecked
    split at hchecked
    · next i =>
      have hnone : Binary64.ofInt? i = none := by simpa [DelayWorks] using h
      refine .inl ?_
      simp only [delayOf, seconds, hnone]
    · next x => exact .inr ⟨x, rfl, h⟩
    · cases hchecked

/-- The paths and the delay of a profile work, or one of the paths is refused before anything else goes
wrong, since it has the code point zero in it. -/
def Fields.Work (s : Surroundings) (dir : Path) (f : Fields) : Prop :=
  HasZero f.dataPath ∨ s.Reaches dir f.dataPath ∧
    match f.logsDir with
    | none => DelayWorks f.delay
    | some logs => HasZero logs ∨ s.Reaches dir logs ∧ DelayWorks f.delay

theorem textOf_eq {members : Table Text Json} {key t : Text}
    (h : Table.get? key members = some (.text t)) : textOf members key = .ok t := by
  unfold textOf
  rw [h]
  rfl

/-- Members are read one by one, the delay last. -/
theorem ofJson_eq {members : Table Text Json} {f : Fields}
    (husername : Table.get? ("username" : Text) members = some (.text f.username))
    (hdata : Table.get? ("data_path" : Text) members = some (.text f.dataPath))
    (hlogs : LogsAt members f.logsDir)
    (hdelay : Table.get? ("action_delay" : Text) members = f.delay) :
    ofJson (.object members) =
      (delayOf f.delay).map fun x => ⟨f.username, f.dataPath, f.logsDir, x⟩ := by
  obtain ⟨username, dataPath, logsDir, delay⟩ := f
  unfold ofJson Json.membersFor
  simp only [bind, Except.bind, textOf_eq husername, textOf_eq hdata, hdelay]
  cases logsDir with
  | none =>
    rcases hlogs with hget | hget <;> simp only [hget] <;> cases delay with
    | none => rfl
    | some value => cases hvalue : seconds value <;> simp only [delayOf, hvalue] <;> rfl
  | some dir =>
    have hget : Table.get? ("logs_dir" : Text) members = some (.text dir) := hlogs
    simp only [hget]
    cases delay with
    | none => rfl
    | some value => cases hvalue : seconds value <;> simp only [delayOf, hvalue] <;> rfl

section
variable {s : Surroundings} {path : Path} {members : Table Text Json} {f : Fields}

/-- The directory for run logs, as an absolute path. -/
def mapLogs (s : Surroundings) (dir : Text) : Option Text → Except Failure (Option Text)
  | none => .ok none
  | some logs => (s.mapPath logs (some dir)).map some

/-- A profile is made of paths that are mapped one by one, and then of the delay. -/
theorem ofMembers_eq (h : Checked members f) :
    ofMembers s path members =
      (s.mapPath f.dataPath (some path.parent.text)).bind fun data =>
        (mapLogs s path.parent.text f.logsDir).bind fun logs =>
          (delayOf f.delay).map fun x => ⟨f.username, data, logs, x⟩ := by
  have hspelling : ((Table.get? ("data_path" : Text) members).map Json.display).getD [] = f.dataPath := by
    rw [h.dataPath]
    rfl
  unfold ofMembers mapMembers
  simp only [hspelling, bind]
  cases s.mapPath f.dataPath (some path.parent.text) with
  | error failure => rfl
  | ok data =>
    simp only [Except.bind]
    -- what stands under the other keys stays when the path of the data file is written
    have hother : ∀ key : Text, ("data_path" : Text) ≠ key → Table.get? key
        (Table.put ("data_path" : Text) (.text data) members) = Table.get? key members :=
      fun key hkey => by rw [Table.get?_put, if_neg hkey]
    have hdata : Table.get? ("data_path" : Text)
        (Table.put ("data_path" : Text) (.text data) members) = some (.text data) := by
      rw [Table.get?_put, if_pos rfl]
    have hname := (hother "username" (by decide)).trans h.username
    have hdelay := (hother "action_delay" (by decide)).trans h.delay
    have hkeep := hother "logs_dir" (by decide)
    generalize Table.put ("data_path" : Text) (.text data) members = moved at hdata hname hdelay hkeep ⊢
    have hlogs := h.logsDir
    cases hdir : f.logsDir with
    | none =>
      rw [hdir] at hlogs
      have hnone : LogsAt moved none := by rwa [LogsAt, hkeep]
      have hmade := ofJson_eq (f := ⟨f.username, data, none, f.delay⟩) hname hdata hnone hdelay
      rcases hnone with hget | hget <;> simp only [hget] <;> exact hmade
    | some logs =>
      rw [hdir] at hlogs
      have hget : Table.get? ("logs_dir" : Text) moved = some (.text logs) := hkeep.trans hlogs
      have hlogsSpelling :
          ((Table.get? ("logs_dir" : Text) members).map Json.display).getD [] = logs := by
        rw [show Table.get? ("logs_dir" : Text) members = some (.text logs) from hlogs]
        rfl
      simp only [hget, hlogsSpelling, mapLogs]
      cases s.mapPath logs (some path.parent.text) with
      | error failure => rfl
      | ok placed =>
        refine ofJson_eq (f := ⟨f.username, data, some placed, f.delay⟩) ?_ ?_ ?_ ?_
        · rw [Table.get?_put, if_neg (by decide)]
          exact hname
        · rw [Table.get?_put, if_neg (by decide)]
          exact hdata
        · show Table.get? _ _ = _
          rw [Table.get?_put, if_pos rfl]
        · rw [Table.get?_put, if_neg (by decide)]
          exact hdelay

/-- A profile with a name, absolute paths and a finite delay is usable, and one with a delay that is not
finite is not. -/
theorem documented_delay_iff {g : Fields} (hnamed : g.username ≠ [])
    (hdata : (Path.parse g.dataPath).isAbsolute = true)
    (hlogs : ∀ dir, g.logsDir = some dir → (Path.parse dir).isAbsolute = true)
    (hnumber : ∀ value, g.delay = some value → checkDelay value = .ok ()) :
    Documented ((delayOf g.delay).map fun x => ⟨g.username, g.dataPath, g.logsDir, x⟩) ↔
      DelayWorks g.delay := by
  constructor
  · intro h
    by_contra hworks
    rcases delayOf_of_not_works hnumber hworks with hrun | ⟨x, hrun, hx⟩ <;> rw [hrun] at h
    · rcases h with hkind | hkind <;> cases hkind
    · exact hx h.finite
  · intro hworks
    obtain ⟨x, hrun, hfinite, hsign⟩ := delayOf_of_works hnumber hworks
    rw [hrun]
    exact ⟨hnamed, hdata, hlogs, hfinite, hsign⟩

/-- What becomes of a path, as seen from the directory of the profile. -/
theorem mapPath_cases (hpath : path.IsCanonical) (spelling : Text) :
    (HasZero spelling ∧ s.mapPath spelling (some path.text) = .error .zeroInProfilePath) ∨
    (¬ HasZero spelling ∧ s.Reaches path spelling ∧
      ∃ t, s.mapPath spelling (some path.text) = .ok t ∧ (Path.parse t).isAbsolute = true) ∨
    (¬ HasZero spelling ∧ ¬ s.Reaches path spelling ∧
      ∃ failure, s.mapPath spelling (some path.text) = .error failure ∧
        Surroundings.IsUnreachable failure) := by
  by_cases hzero : HasZero spelling
  · exact .inl ⟨hzero, Surroundings.mapPath_of_zero (fun h => not_hasZero_iff.2 h hzero) _⟩
  · have hnone := not_hasZero_iff.1 hzero
    by_cases hreaches : s.Reaches path spelling
    · exact .inr (.inl ⟨hzero, hreaches, Surroundings.mapPath_of_reaches hpath hnone hreaches⟩)
    · exact .inr (.inr ⟨hzero, hreaches, Surroundings.mapPath_of_not_reaches hpath hnone hreaches⟩)

/-- The members of a profile become one, or what is wrong with them is told, just if they work. -/
theorem documented_ofMembers_iff (hpath : path.IsCanonical) (h : Checked members f) :
    Documented (ofMembers s path members) ↔ f.Work s path.parent := by
  have hparent := Path.isCanonical_parent hpath
  rw [ofMembers_eq h]
  unfold Fields.Work
  rcases mapPath_cases (s := s) hparent f.dataPath with
    ⟨hzero, hrun⟩ | ⟨hzero, hreaches, data, hrun, hdata⟩ | ⟨hzero, hreaches, failure, hrun, hfailure⟩ <;>
    rw [hrun]
  · exact ⟨fun _ => .inl hzero, fun _ => documented_of_config rfl⟩
  · rw [or_iff_right hzero, and_iff_right hreaches]
    cases hdir : f.logsDir with
    | none =>
      exact documented_delay_iff (g := ⟨f.username, data, none, f.delay⟩) h.named hdata
        (fun dir hd => by cases hd) h.number
    | some logs =>
      simp only [mapLogs]
      rcases mapPath_cases (s := s) hparent logs with
        ⟨hzero, hrun⟩ | ⟨hzero, hreaches, placed, hrun, hplaced⟩ | ⟨hzero, hreaches, failure, hrun, hfailure⟩ <;>
        rw [hrun]
      · exact ⟨fun _ => .inl hzero, fun _ => documented_of_config rfl⟩
      · rw [or_iff_right hzero, and_iff_right hreaches]
        refine documented_delay_iff (g := ⟨f.username, data, some placed, f.delay⟩) h.named hdata ?_ h.number
        intro dir hd
        cases hd
        exact hplaced
      · exact ⟨fun hd => absurd hd (not_documented hfailure), fun hw =>
          absurd (hw.resolve_left hzero).1 hreaches⟩
  · exact ⟨fun hd => absurd hd (not_documented hfailure), fun hw =>
      absurd (hw.resolve_left hzero).1 hreaches⟩

/-- The bytes of a profile file are a text that is no document, or a document whose numbers can be read
and whose members, if they are fit to be those of a profile, work. -/
def Answerable (s : Surroundings) (dir : Path) (bytes : List UInt8) : Prop :=
  ∃ t, Text.Utf8.decode bytes = .ok t ∧
    match Json.parse (Text.unifyNewlines t) with
    | .error (.tooManyDigits _) => False
    | .error _ => True
    | .ok value => ∀ members f, check value = .ok members → Checked members f → f.Work s dir

/-- A document is loaded, or refused as a profile may be, just if its members work. -/
theorem documented_check_iff (hpath : path.IsCanonical) (value : Json) :
    Documented ((check value).bind (ofMembers s path)) ↔
      ∀ members f, check value = .ok members → Checked members f → f.Work s path.parent := by
  rcases check_cases value with ⟨failure, hrun, hkind⟩ | ⟨members, f, hrun, hchecked⟩ <;> rw [hrun]
  · exact ⟨fun _ members f h => (by cases h), fun _ => documented_of_config hkind⟩
  · constructor
    · intro h members' f' hmembers hchecked'
      cases hmembers
      exact (documented_ofMembers_iff hpath hchecked').1 h
    · intro h
      exact (documented_ofMembers_iff hpath hchecked).2 (h members f rfl hchecked)

/-- The bytes of a file are loaded, or told to be none of a profile, just if they are answerable. -/
theorem documented_read_iff {w : World} {bytes : List UInt8} (hpath : path.IsCanonical)
    (hbytes : w.disk.bytes? path = some bytes)
    (hdepth : ∀ t, w.readText path = .ok t → Store.WithinDepth t) :
    Documented ((w.readText path).bind fun text =>
      match Json.parse text with
      | .error (.flawed spot) => .error (.profileNotJson spot)
      | .error (.tooManyDigits count) => .error (.tooManyDigits count)
      | .error (.tooDeep isObject) => .error (.tooDeep isObject)
      | .ok value => (check value).bind (ofMembers s path)) ↔
      Answerable s path.parent bytes := by
  cases hdecode : Text.Utf8.decode bytes with
  | error problem =>
    have hread : w.readText path = .error (.undecodable problem) := by
      unfold World.readText World.readWhole
      rw [(Disk.read_eq_ok_iff ..).2 ((Disk.bytes?_eq_some_iff ..).1 hbytes)]
      simp only [hdecode]
      rfl
    rw [hread]
    constructor
    · rintro (hkind | hkind) <;> cases hkind
    · rintro ⟨t, ht, -⟩
      rw [hdecode] at ht
      cases ht
  | ok whole =>
    have hread : w.readText path = .ok (Text.unifyNewlines whole) :=
      Store.readText_eq_ok_iff.2 ⟨bytes, whole, hbytes, hdecode, rfl⟩
    have hwithin := hdepth _ hread
    have hanswerable : Answerable s path.parent bytes ↔
        match Json.parse (Text.unifyNewlines whole) with
        | .error (.tooManyDigits _) => False
        | .error _ => True
        | .ok value =>
          ∀ members f, check value = .ok members → Checked members f → f.Work s path.parent := by
      unfold Answerable
      rw [hdecode]
      exact ⟨fun ⟨t, ht, h⟩ => Except.ok.inj ht ▸ h, fun h => ⟨whole, rfl, h⟩⟩
    rw [hread, hanswerable]
    simp only [Except.bind]
    cases hparse : Json.parse (Text.unifyNewlines whole) with
    | ok value => exact documented_check_iff hpath value
    | error problem =>
      cases problem with
      | flawed spot => exact ⟨fun _ => trivial, fun _ => documented_of_config rfl⟩
      | tooManyDigits count =>
        refine ⟨?_, fun h => h.elim⟩
        rintro (hkind | hkind) <;> cases hkind
      | tooDeep isObject => exact absurd hparse (hwithin isObject)

/-- The profile at a path. -/
def loadAt (s : Surroundings) (path : Path) (w : World) : Except Failure Profile := do
  if !(← w.holds path) then .error (.profileMissing path.text)
  else
    let text ← w.readText path
    match Json.parse text with
    | .error (.flawed spot) => .error (.profileNotJson spot)
    | .error (.tooManyDigits count) => .error (.tooManyDigits count)
    | .error (.tooDeep isObject) => .error (.tooDeep isObject)
    | .ok value => ofMembers s path (← check value)

/-- What is at a path is loaded, or refused as a profile may be, just if there is nothing, or a file whose
bytes are answerable. -/
theorem documented_loadAt_iff {w : World} (hpath : path.IsCanonical)
    (hdepth : ∀ t, w.readText path = .ok t → Store.WithinDepth t) :
    Documented (loadAt s path w) ↔ w.disk.holds path = .ok false ∨
      ∃ bytes, w.disk.bytes? path = some bytes ∧ Answerable s path.parent bytes := by
  unfold loadAt
  simp only [bind, Except.bind, World.holds]
  rcases Disk.holds_cases w.disk path with
    ⟨t, hholds, hnone⟩ | hholds | ⟨hholds, hread⟩ | ⟨bytes, hholds, hread⟩ <;> rw [hholds]
  · -- the path is too long
    constructor
    · rintro (hkind | hkind) <;> cases hkind
    · rintro (h | ⟨bytes, hbytes, -⟩)
      · cases h
      · rw [hnone] at hbytes
        cases hbytes
  · exact ⟨fun _ => .inl rfl, fun _ => .inl rfl⟩
  · -- a directory is there
    have hfails : w.readText path = .error (.refused .isDirectory path.text) := by
      unfold World.readText World.readWhole
      rw [hread]
      rfl
    rw [hfails]
    constructor
    · rintro (hkind | hkind) <;> cases hkind
    · rintro (h | ⟨bytes, hbytes, -⟩)
      · cases h
      · unfold Disk.bytes? at hbytes
        rw [hread] at hbytes
        cases hbytes
  · -- a file is there
    have hbytes : w.disk.bytes? path = some bytes := by
      unfold Disk.bytes?
      rw [hread]
      rfl
    refine (documented_read_iff hpath hbytes hdepth).trans ⟨fun h => .inr ⟨bytes, hbytes, h⟩, ?_⟩
    rintro (h | ⟨other, hother, h⟩)
    · cases h
    · rw [hbytes] at hother
      cases hother
      exact h

/-- **When loading a profile ends as it may**: the system can be asked about its path, and nothing is
there, or a file with bytes that are answerable. -/
theorem documented_load_iff {spelling : Text} {w : World}
    (habsolute : (Path.parse spelling).isAbsolute = true) (hzero : ∀ c ∈ spelling, c.val ≠ 0)
    (hdepth : ∀ t, w.readText (Path.parse spelling).resolve = .ok t → Store.WithinDepth t) :
    Documented (load s spelling w) ↔ Disk.unaskable? (Path.parse spelling) = none ∧
      (w.disk.holds (Path.parse spelling).resolve = .ok false ∨
        ∃ bytes, w.disk.bytes? (Path.parse spelling).resolve = some bytes ∧
          Answerable s (Path.parse spelling).resolve.parent bytes) := by
  have hcanonical := Path.isCanonical_resolve spelling
  have hload : load s spelling w =
      (Surroundings.resolve (Path.parse spelling)).bind fun t => loadAt s (Path.parse t) w := by
    unfold load
    rw [Surroundings.mapPath_of_isAbsolute habsolute hzero]
    rfl
  rw [hload]
  by_cases hask : Disk.unaskable? (Path.parse spelling) = none
  · rw [Surroundings.resolve_eq hask, and_iff_right hask]
    simp only [Except.bind]
    rw [Path.parse_text hcanonical]
    exact documented_loadAt_iff hcanonical hdepth
  · obtain ⟨failure, hrun, hfailure⟩ := Surroundings.isUnreachable_resolve hask
    rw [hrun]
    exact ⟨fun h => absurd h (not_documented hfailure), fun h => absurd h.1 hask⟩

end

/-- A user at home, and a program. -/
def sampleSurroundings : Surroundings :=
  { home := "/home/ada", user := "ada", homes := [], program := Path.parse "/opt/vaultterm" }

/-- A disk with a profile in it. -/
def sampleProfileWorld (bytes : List UInt8) : World :=
  World.fresh 0 [([Disk.Name.ofText "p.json"], .file bytes)]

/-- A profile with a data file at home, and run logs beside the profile. -/
def sampleMembers : Table Text Json :=
  [("username", .text "ada"), ("data_path", .text "~/vault.json"), ("logs_dir", .text "./logs")]

@[inherit_doc sampleMembers] def sampleBytes : List UInt8 :=
  (World.encodePieces ((Json.object sampleMembers).tokens Json.fileLayout)).1

theorem documented_load_sampleMembers :
    Documented (load sampleSurroundings "/p.json" (sampleProfileWorld sampleBytes)) := by
  have hdistinct : Json.Distinct (.object sampleMembers) := by
    refine .object (by decide) fun member hm => ?_
    simp only [sampleMembers, List.mem_cons, List.not_mem_nil, or_false] at hm
    rcases hm with rfl | rfl | rfl <;> exact .text _
  have hdecode : Text.Utf8.decode sampleBytes = .ok (Json.indented (.object sampleMembers)) :=
    Text.Utf8.decode_of_encode (World.encode_of_encodePieces (by decide +kernel))
  have hparse : Json.parse (Text.unifyNewlines (Json.indented (.object sampleMembers))) =
      .ok (.object sampleMembers) := by
    have hplain : Json.carriageReturn ∉ Json.indented (.object sampleMembers) :=
      Json.not_mem_indented hdistinct
    rw [Text.unifyNewlines_eq_self hplain]
    exact Json.parse_indented hdistinct rfl
  have hbytes : (sampleProfileWorld sampleBytes).disk.bytes? (Path.parse "/p.json").resolve =
      some sampleBytes := by rfl
  have habsolute : (Path.parse "/p.json").isAbsolute = true := by decide
  have hzero : ∀ c ∈ ("/p.json" : Text), c.val ≠ 0 := by decide
  have hask : Disk.unaskable? (Path.parse "/p.json") = none := by decide
  have hdepth : ∀ t, (sampleProfileWorld sampleBytes).readText (Path.parse "/p.json").resolve = .ok t →
      Store.WithinDepth t := by
    intro t ht isObject
    obtain ⟨bytes, whole, hb, hd, rfl⟩ := Store.readText_eq_ok_iff.1 ht
    rw [hbytes] at hb
    cases hb
    rw [hdecode] at hd
    cases hd
    rw [hparse]
    exact fun h => by cases h
  have hiff := documented_load_iff (s := sampleSurroundings) habsolute hzero hdepth
  rw [hiff, and_iff_right hask]
  · refine .inr ⟨_, hbytes, _, hdecode, ?_⟩
    rw [hparse]
    intro members f hmembers hchecked
    have hsame : members = sampleMembers :=
      (Except.ok.inj (hmembers.symm.trans (by rfl : check (.object sampleMembers) = .ok sampleMembers)))
    rw [hsame] at hchecked
    have hdata : f.dataPath = "~/vault.json" := Json.text.inj (Option.some.inj hchecked.dataPath.symm)
    have hdelay : f.delay = none := hchecked.delay.symm
    have hlogs := hchecked.logsDir
    unfold Fields.Work
    rw [hdata, hdelay]
    refine .inr ⟨⟨_, rfl, by decide⟩, ?_⟩
    cases hdir : f.logsDir with
    | none => trivial
    | some logs =>
      rw [hdir] at hlogs
      have hlogs : logs = "./logs" := Json.text.inj (Option.some.inj hlogs.symm)
      rw [hlogs]
      exact .inr ⟨⟨_, rfl, by decide⟩, trivial⟩

/-- **Bytes that are no text are a failure that is not told as one of the profile.** -/
theorem exists_undocumented_load : ∃ (s : Surroundings) (spelling : Text) (w : World) (bytes : List UInt8),
    (Path.parse spelling).isAbsolute = true ∧ (∀ c ∈ spelling, c.val ≠ 0) ∧
      w.disk.bytes? (Path.parse spelling).resolve = some bytes ∧
      (∀ t, w.readText (Path.parse spelling).resolve = .ok t → Store.WithinDepth t) ∧
      ¬ Documented (load s spelling w) := by
  have hbytes : (sampleProfileWorld [0xff]).disk.bytes? (Path.parse "/p.json").resolve =
      some [0xff] := by rfl
  have hdecode : ∀ t, Text.Utf8.decode [0xff] ≠ .ok t := fun t ht => by cases ht
  refine ⟨sampleSurroundings, "/p.json", sampleProfileWorld [0xff], [0xff], by decide, by decide, hbytes, ?_, ?_⟩
  · intro t ht
    obtain ⟨bytes, whole, hb, hd, -⟩ := Store.readText_eq_ok_iff.1 ht
    rw [hbytes] at hb
    cases hb
    exact absurd hd (hdecode whole)
  · have hrun : ∃ problem, load sampleSurroundings "/p.json" (sampleProfileWorld [0xff]) =
        .error (.undecodable problem) := ⟨_, rfl⟩
    obtain ⟨problem, hrun⟩ := hrun
    rw [hrun]
    rintro (hkind | hkind) <;> cases hkind

end Profile

end VaultConsole
