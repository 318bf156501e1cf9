import VaultConsole.Proofs.Store.Loading

/-!
# What becomes of a spelling in a profile

A spelling stands for a path: one below the program or below a home, one that is absolute already, or
one that is seen from the directory of the profile. The path is resolved name by name, and that fails
only where the system cannot be asked about a name.

* `Path.parse_text_of_isRead`, `Path.parse_text`: a path is read back as it was written.
* `Surroundings.resolve_eq`: resolving a path that the system can be asked about.
* `Surroundings.Reaches`: spellings that have a path.
* `Surroundings.mapPath_of_reaches`, `Surroundings.mapPath_of_not_reaches`: **a spelling without the code
  point zero is mapped just if it has a path.**
-/

namespace VaultConsole

/-! ## Reading written paths -/

namespace Text

variable {sep : CodePoint} {piece t : Text}

/-- A joined text begins with its first piece. -/
theorem joinWith_cons_append (sep first : Text) (rest : List Text) :
    ∃ tail, joinWith sep (first :: rest) = first ++ tail := by
  cases rest with
  | nil => exact ⟨[], (List.append_nil first).symm⟩
  | cons next more =>
    exact ⟨sep ++ joinWith sep (next :: more), List.append_assoc first sep _⟩

theorem not_mem_of_mem_splitOn (h : piece ∈ splitOn sep t) : sep ∉ piece := by
  induction t generalizing piece with
  | nil =>
    rw [splitOn, List.mem_singleton] at h
    rw [h]
    exact List.not_mem_nil
  | cons c rest ih =>
    rw [splitOn] at h
    split at h
    · rcases List.mem_cons.1 h with rfl | h
      · exact List.not_mem_nil
      · exact ih h
    · next hc =>
      cases hrest : splitOn sep rest with
      | nil => exact absurd hrest (splitOn_ne_nil sep rest)
      | cons first more =>
        rw [hrest] at h ih
        rcases List.mem_cons.1 h with rfl | h
        · rw [List.mem_cons, not_or]
          exact ⟨Ne.symm hc, ih List.mem_cons_self⟩
        · exact ih (List.mem_cons_of_mem first h)

end Text

namespace Path

theorem text_of_root {p : Path} (h : p.slashes = 1) :
    p.text = slash :: Text.joinWith [slash] p.names := by
  unfold text
  rw [if_neg (fun hp => absurd (h.symm.trans hp.1) Nat.one_ne_zero), h]
  rfl

/-- A path as it is read: no name is empty or `.`, no name has a slash, and no more than two slashes are
kept in front. -/
def IsRead (p : Path) : Prop := p.slashes ≤ 2 ∧ ∀ name ∈ p.names, isName name = true ∧ slash ∉ name

theorem IsCanonical.isRead {p : Path} (h : p.IsCanonical) : p.IsRead := by
  refine ⟨by rw [h.1]; decide, fun name hname => ?_⟩
  obtain ⟨hempty, hhere, -, hslash⟩ := h.2 name hname
  exact ⟨by simp [isName, hempty, hhere], hslash⟩

theorem isRead_parse (t : Text) : (parse t).IsRead := by
  constructor
  · unfold parse
    dsimp only
    split
    · exact Nat.zero_le 2
    · split <;> decide
  · intro name hname
    obtain ⟨hpiece, hisName⟩ := List.mem_filter.1 hname
    exact ⟨hisName, Text.not_mem_of_mem_splitOn hpiece⟩

section
variable {names : List Text} (h : ∀ name ∈ names, isName name = true ∧ slash ∉ name)
include h

/-- Written names are found again, whatever slashes are in front. -/
theorem splitOn_slashes (slashes : Nat) :
    (Text.splitOn slash (List.replicate slashes slash ++ Text.joinWith [slash] names)).filter isName =
      names := by
  induction slashes with
  | zero =>
    rw [List.replicate_zero, List.nil_append]
    cases names with
    | nil => decide
    | cons first rest =>
      rw [Text.splitOn_joinWith (List.cons_ne_nil first rest) fun name hn => (h name hn).2]
      exact List.filter_eq_self.2 fun name hn => (h name hn).1
  | succ slashes ih =>
    rw [List.replicate_succ, List.cons_append, Text.splitOn, if_pos rfl, List.filter_cons_of_neg (by decide)]
    exact ih

/-- Written names begin with no slash. -/
theorem takeWhile_joinWith : (Text.joinWith [slash] names).takeWhile (· = slash) = [] := by
  cases names with
  | nil => rfl
  | cons first rest =>
    -- the first name has a beginning, and that is no slash
    obtain ⟨hname, hslash⟩ := h first List.mem_cons_self
    cases first with
    | nil => cases hname
    | cons c more =>
      obtain ⟨tail, htail⟩ := Text.joinWith_cons_append [slash] (c :: more) rest
      have hc : ¬ c = slash := fun hc => hslash (by rw [hc]; exact List.mem_cons_self)
      rw [htail, List.cons_append]
      exact List.takeWhile_cons_of_neg (by simpa using hc)

end

/-- **A path is read back as it was written.** -/
theorem parse_text_of_isRead {p : Path} (h : p.IsRead) : parse p.text = p := by
  obtain ⟨slashes, names⟩ := p
  obtain ⟨hslashes, hnames⟩ := h
  by_cases hhere : slashes = 0 ∧ names = []
  · rw [hhere.1, hhere.2]
    decide
  · have htext : text ⟨slashes, names⟩ = List.replicate slashes slash ++ Text.joinWith [slash] names :=
      if_neg hhere
    have hleading : ((List.replicate slashes slash ++ Text.joinWith [slash] names).takeWhile
        (· = slash)).length = slashes := by
      rw [List.takeWhile_append_of_pos (by simp), takeWhile_joinWith hnames, List.append_nil,
        List.length_replicate]
    unfold parse
    rw [htext, splitOn_slashes hnames, hleading]
    have hkept : (if slashes = 0 then 0 else if slashes = 2 then 2 else 1) = slashes := by
      have hle : slashes ≤ 2 := hslashes
      split <;> [skip; split] <;> omega
    exact congrArg (Path.mk · names) hkept

/-- Paths with one text are one path. -/
theorem eq_of_text {p q : Path} (hp : p.IsRead) (hq : q.IsRead) (h : p.text = q.text) : p = q := by
  rw [← parse_text_of_isRead hp, h, parse_text_of_isRead hq]

/-- **A path without `..` is read back as it was written.** -/
theorem parse_text {p : Path} (h : p.IsCanonical) : parse p.text = p := parse_text_of_isRead h.isRead

/-- The names that are read are no empty ones. -/
theorem plain_of_mem_parse {t name : Text} (h : name ∈ (parse t).names) (habove : name ≠ above) :
    IsPlain name := by
  obtain ⟨hpiece, hname⟩ := List.mem_filter.1 h
  simp only [isName, Bool.and_eq_true, Bool.not_eq_true', List.isEmpty_eq_false_iff, bne_iff_ne] at hname
  exact ⟨hname.1, hname.2, habove, Text.not_mem_of_mem_splitOn hpiece⟩

theorem mem_resolveOnto {done names : List Text} {name : Text} (h : name ∈ resolveOnto done names) :
    name ∈ done ∨ name ∈ names ∧ name ≠ above := by
  induction names generalizing done with
  | nil => exact .inl h
  | cons first rest ih =>
    rw [resolveOnto] at h
    split at h
    · rcases ih h with hdone | ⟨hrest, hname⟩
      · exact .inl (List.dropLast_subset done hdone)
      · exact .inr ⟨List.mem_cons_of_mem first hrest, hname⟩
    · next hfirst =>
      rcases ih h with hdone | ⟨hrest, hname⟩
      · rcases List.mem_append.1 hdone with hdone | hlast
        · exact .inl hdone
        · rw [List.mem_singleton.1 hlast]
          exact .inr ⟨List.mem_cons_self, hfirst⟩
      · exact .inr ⟨List.mem_cons_of_mem first hrest, hname⟩

/-- Resolving a path of names that were read leaves one that is absolute and has no `..`. -/
theorem isCanonical_resolve_of_plain {p : Path} (h : ∀ name ∈ p.names, name ≠ above → IsPlain name) :
    p.resolve.IsCanonical := by
  refine ⟨rfl, fun name hname => ?_⟩
  rcases mem_resolveOnto hname with hnone | ⟨hmem, habove⟩
  · exact absurd hnone List.not_mem_nil
  · exact h name hmem habove

theorem isCanonical_resolve (t : Text) : (parse t).resolve.IsCanonical :=
  isCanonical_resolve_of_plain fun _ => plain_of_mem_parse

theorem isCanonical_parent {p : Path} (h : p.IsCanonical) : p.parent.IsCanonical :=
  ⟨h.1, fun name hname => h.2 name (List.dropLast_subset p.names hname)⟩

/-- The spelling of an absolute path begins with a slash. -/
theorem eq_slash_of_isAbsolute {c : CodePoint} {rest : Text}
    (h : (parse (c :: rest)).isAbsolute = true) : c = slash := by
  by_contra hc
  have hnone : (c :: rest).takeWhile (· = slash) = [] := List.takeWhile_cons_of_neg (by simpa using hc)
  unfold parse isAbsolute at h
  rw [hnone] at h
  exact Bool.false_ne_true h

/-- The spellings of absolute paths are those that begin with a slash. -/
theorem isAbsolute_parse_iff (t : Text) : (parse t).isAbsolute = true ↔ [slash] <+: t := by
  constructor
  · intro h
    cases t with
    | nil => exact absurd h (by decide)
    | cons c rest =>
      rw [eq_slash_of_isAbsolute h]
      exact ⟨rest, rfl⟩
  · rintro ⟨rest, rfl⟩
    unfold parse isAbsolute
    rw [List.singleton_append, List.takeWhile_cons_of_pos (by simp), List.length_cons]
    simp only [Nat.add_eq_zero_iff, Nat.one_ne_zero, and_false, if_false]
    split <;> decide

/-- A written path that begins at the root is absolute. -/
theorem isAbsolute_parse_text {p : Path} (h : p.slashes = 1) : (parse p.text).isAbsolute = true :=
  (isAbsolute_parse_iff p.text).2 ⟨_, (text_of_root h).symm⟩

end Path

/-! ## Resolving paths -/

namespace Disk

/-- The system can be asked about a path just if it can be asked about every name of it. -/
theorem unaskable?_eq_none_iff_names (path : Path) :
    unaskable? path = none ↔ ∀ name ∈ path.names, ∀ c ∈ name,
      (c.isSurrogate && !Name.isByte c) = false ∧ (c.val == 0) = false := by
  rw [unaskable?_eq_none_iff]
  have hslash : (Path.slash.isSurrogate && !Name.isByte Path.slash) = false ∧
      (Path.slash.val == 0) = false := by decide
  have hhere : ∀ c ∈ Path.here, (c.isSurrogate && !Name.isByte c) = false ∧ (c.val == 0) = false := by
    decide
  unfold Path.text
  constructor
  · intro h name hname c hc
    have hnone : ¬ (path.slashes = 0 ∧ path.names = []) := fun hp => by
      rw [hp.2] at hname
      exact absurd hname List.not_mem_nil
    rw [if_neg hnone] at h
    exact h c (List.mem_append_right _ (Text.mem_joinWith_of_mem hname hc))
  · intro h c hc
    split at hc
    · exact hhere c hc
    · rcases List.mem_append.1 hc with hc | hc
      · rw [List.eq_of_mem_replicate hc]
        exact hslash
      · rcases Text.mem_joinWith hc with hc | ⟨name, hname, hc⟩
        · rw [List.mem_singleton.1 hc]
          exact hslash
        · exact h name hname c hc

/-- What keeps the system from being asked about a path is a matter of its code points. -/
theorem eq_of_unaskable? {path : Path} {problem : Problem} (h : unaskable? path = some problem) :
    problem = .zeroInPath ∨ ∃ cause, problem = .unencodable cause := by
  unfold unaskable? at h
  split at h
  · next cause _ =>
    cases h
    exact .inr ⟨cause, rfl⟩
  · split at h <;> cases h
    exact .inl rfl

/-- A path is too long to be asked about, or nothing is there, or a directory, or a file. -/
theorem holds_cases (disk : Disk) (path : Path) :
    (∃ t, disk.holds path = .error (.refused .nameTooLong t) ∧ disk.bytes? path = none) ∨
      disk.holds path = .ok false ∨
      (disk.holds path = .ok true ∧ disk.read path = .error (.refused .isDirectory path.text)) ∨
      ∃ bytes, disk.holds path = .ok true ∧ disk.read path = .ok bytes := by
  unfold holds bytes? read
  cases hwalk : walk disk path with
  | ok place =>
    simp only [bind, Except.bind]
    cases node? disk place with
    | none => exact .inr (.inl rfl)
    | some node =>
      cases node with
      | directory => exact .inr (.inr (.inl ⟨rfl, rfl⟩))
      | file bytes => exact .inr (.inr (.inr ⟨bytes, rfl, rfl⟩))
  | error problem =>
    split
    · next t h => exact .inl ⟨_, rfl, rfl⟩
    · exact .inr (.inl rfl)
    · next h => cases h

end Disk

namespace Surroundings

/-- A failure because the system cannot be asked about something, or because a home is not known. -/
def IsUnreachable (failure : Failure) : Prop :=
  failure.kind = .value ∨ failure.kind = .encoding ∨ failure.kind = .runtime

theorem isUnreachable_of_unaskable? {path : Path} {problem : Disk.Problem}
    (h : Disk.unaskable? path = some problem) : IsUnreachable (.ofDisk problem) := by
  rcases Disk.eq_of_unaskable? h with rfl | ⟨cause, rfl⟩
  · exact .inl rfl
  · exact .inr (.inl rfl)

section
variable {done names : List Text}

theorem resolveNames_eq (hdone : Disk.unaskable? ⟨1, done⟩ = none)
    (hnames : Disk.unaskable? ⟨1, names⟩ = none) :
    resolveNames done names = .ok (Path.resolveOnto done names) := by
  induction names generalizing done with
  | nil => rfl
  | cons name rest ih =>
    have hlast := hdone
    rw [Disk.unaskable?_eq_none_iff_names] at hdone hnames
    have hrest : Disk.unaskable? ⟨1, rest⟩ = none :=
      (Disk.unaskable?_eq_none_iff_names _).2 fun other ho => hnames other (List.mem_cons_of_mem name ho)
    unfold resolveNames Path.resolveOnto
    split
    · exact ih (Disk.unaskable?_parent hlast) hrest
    · have hplace : Disk.unaskable? ⟨1, done ++ [name]⟩ = none := by
        refine (Disk.unaskable?_eq_none_iff_names _).2 fun other ho => ?_
        rcases List.mem_append.1 ho with ho | ho
        · exact hdone other ho
        · rw [List.mem_singleton.1 ho]
          exact hnames name List.mem_cons_self
      simp only [hplace]
      exact ih hplace hrest

theorem isUnreachable_resolveNames (hnames : Disk.unaskable? ⟨1, names⟩ ≠ none) :
    ∃ failure, resolveNames done names = .error failure ∧ IsUnreachable failure := by
  induction names generalizing done with
  | nil => exact absurd (by decide) hnames
  | cons name rest ih =>
    unfold resolveNames
    by_cases habove : name = Path.above
    · -- there is nothing wrong with `..`, so it must be with another name
      have hrest : Disk.unaskable? ⟨1, rest⟩ ≠ none := by
        intro hrest
        refine hnames ((Disk.unaskable?_eq_none_iff_names _).2 ?_)
        rw [habove, List.forall_mem_cons]
        exact ⟨by decide, (Disk.unaskable?_eq_none_iff_names _).1 hrest⟩
      rw [if_pos habove]
      exact ih hrest
    · rw [if_neg habove]
      simp only
      split
      · next problem hproblem => exact ⟨_, rfl, isUnreachable_of_unaskable? hproblem⟩
      · next hplace =>
        refine ih fun hrest => hnames ((Disk.unaskable?_eq_none_iff_names _).2 ?_)
        rw [Disk.unaskable?_eq_none_iff_names] at hplace hrest
        rw [List.forall_mem_cons]
        exact ⟨hplace name (List.mem_append_right done List.mem_cons_self), hrest⟩

end

/-- How many slashes a path begins with does not matter to the system. -/
theorem unaskable?_rooted (p : Path) :
    Disk.unaskable? ⟨1, p.names⟩ = none ↔ Disk.unaskable? p = none := by
  rw [Disk.unaskable?_eq_none_iff_names, Disk.unaskable?_eq_none_iff_names]

/-- **Resolving a path that the system can be asked about.** -/
theorem resolve_eq {p : Path} (h : Disk.unaskable? p = none) : resolve p = .ok p.resolve.text := by
  unfold resolve
  rw [resolveNames_eq (by decide) ((unaskable?_rooted p).2 h)]
  rfl

theorem isUnreachable_resolve {p : Path} (h : Disk.unaskable? p ≠ none) :
    ∃ failure, resolve p = .error failure ∧ IsUnreachable failure := by
  obtain ⟨failure, hrun, hfailure⟩ :
      ∃ failure, resolveNames [] p.names = .error failure ∧ IsUnreachable failure :=
    isUnreachable_resolveNames fun hp => h ((unaskable?_rooted p).1 hp)
  unfold resolve
  rw [hrun]
  exact ⟨failure, rfl, hfailure⟩

/-! ## Mapping spellings -/

variable (s : Surroundings) (dir : Path)

/-- The path that a spelling stands for, as seen from a directory. -/
def place (spelling : Text) : Except Failure Path :=
  match belowProgram? spelling with
  | some rest => .ok (s.program.append (Path.parse rest))
  | none => do return dir.append (← s.expandHome (Path.parse spelling))

/-- A spelling has a path: no home is missing, and the system can be asked about it. -/
def Reaches (spelling : Text) : Prop :=
  ∃ p, s.place dir spelling = .ok p ∧ Disk.unaskable? p = none

variable {s dir} {spelling : Text}

theorem isUnreachable_homeOf {name : Text} {failure : Failure} (h : s.homeOf name = .error failure) :
    IsUnreachable failure := by
  unfold homeOf at h
  split at h
  · cases h
  · split at h
    · cases h
      exact .inr (.inl rfl)
    · split at h <;> cases h
      exact .inr (.inr rfl)

theorem isUnreachable_expandHome {p : Path} {failure : Failure}
    (h : s.expandHome p = .error failure) : IsUnreachable failure := by
  unfold expandHome at h
  split at h
  · cases h
  · split at h
    · next name _ _ =>
      split at h
      · cases hhome : s.homeOf name with
        | ok home =>
          rw [hhome] at h
          cases h
        | error failure' =>
          rw [hhome] at h
          cases h
          exact isUnreachable_homeOf hhome
      · cases h
    · cases h

/-- Without the code point zero, a spelling in a profile is mapped to its path. -/
theorem mapPath_eq (hdir : dir.IsCanonical) (hzero : ∀ c ∈ spelling, c.val ≠ 0) :
    s.mapPath spelling (some dir.text) = s.place dir spelling >>= resolve := by
  have hnone : ¬ (spelling.any (·.val == 0) = true) := by
    simpa [List.any_eq_true] using hzero
  unfold mapPath place
  rw [if_neg hnone]
  cases belowProgram? spelling with
  | some rest => rfl
  | none =>
    simp only [Path.parse_text hdir]
    cases s.expandHome (Path.parse spelling) with
    | error failure => rfl
    | ok p =>
      show (if p.isAbsolute = true then _ else _) = resolve (dir.append p)
      unfold Path.append
      split <;> rfl

/-- **A spelling that has a path is mapped to it**, and that is absolute. -/
theorem mapPath_of_reaches (hdir : dir.IsCanonical) (hzero : ∀ c ∈ spelling, c.val ≠ 0)
    (h : s.Reaches dir spelling) :
    ∃ t, s.mapPath spelling (some dir.text) = .ok t ∧ (Path.parse t).isAbsolute = true := by
  obtain ⟨p, hplace, hask⟩ := h
  refine ⟨p.resolve.text, ?_, Path.isAbsolute_parse_text rfl⟩
  rw [mapPath_eq hdir hzero, hplace]
  exact resolve_eq hask

theorem mapPath_of_not_reaches (hdir : dir.IsCanonical) (hzero : ∀ c ∈ spelling, c.val ≠ 0)
    (h : ¬ s.Reaches dir spelling) :
    ∃ failure, s.mapPath spelling (some dir.text) = .error failure ∧ IsUnreachable failure := by
  rw [mapPath_eq hdir hzero]
  cases hplace : s.place dir spelling with
  | ok p => exact isUnreachable_resolve fun hask => h ⟨p, hplace, hask⟩
  | error failure =>
    refine ⟨failure, rfl, ?_⟩
    unfold place at hplace
    split at hplace
    · cases hplace
    · cases hexpand : s.expandHome (Path.parse spelling) with
      | ok p =>
        rw [hexpand] at hplace
        cases hplace
      | error failure' =>
        rw [hexpand] at hplace
        cases hplace
        exact isUnreachable_expandHome hexpand

/-- A path with the code point zero is refused, wherever it is seen from. -/
theorem mapPath_of_zero (hzero : ¬ ∀ c ∈ spelling, c.val ≠ 0) (profileDir : Option Text) :
    s.mapPath spelling profileDir = .error .zeroInProfilePath := by
  have hsome : spelling.any (·.val == 0) = true := by
    simpa [List.any_eq_true] using hzero
  unfold mapPath
  rw [if_pos hsome]

/-- A spelling that does not begin at the program is mapped to its path once a home is in place of a
tilde: that path is absolute, or it is seen from the directory. -/
theorem mapPath_of_expandHome {p : Path} (hzero : ∀ c ∈ spelling, c.val ≠ 0)
    (hbelow : belowProgram? spelling = none) (hexpand : s.expandHome (Path.parse spelling) = .ok p)
    (profileDir : Option Text) :
    s.mapPath spelling profileDir =
      if p.isAbsolute then resolve p
      else
        match profileDir with
        | some dir => resolve ((Path.parse dir).append p)
        | none => .error .relativeProfilePath := by
  have hnone : ¬ (spelling.any (·.val == 0) = true) := by
    simpa [List.any_eq_true] using hzero
  unfold mapPath
  rw [if_neg hnone, hbelow, hexpand]
  rfl

/-- An absolute path needs no directory to be seen from. -/
theorem mapPath_of_isAbsolute (habsolute : (Path.parse spelling).isAbsolute = true)
    (hzero : ∀ c ∈ spelling, c.val ≠ 0) (profileDir : Option Text) :
    s.mapPath spelling profileDir = resolve (Path.parse spelling) := by
  have hbelow : belowProgram? spelling = none := by
    -- the spelling begins with a slash, which is no sign of the program
    have hsign : Path.slash ≠ programSign := by decide
    rcases spelling with _ | ⟨c, _ | ⟨d, rest⟩⟩
    · rfl
    · rw [belowProgram?, if_neg (by rw [Path.eq_slash_of_isAbsolute habsolute]; exact hsign)]
    · rw [belowProgram?, if_neg (by rw [Path.eq_slash_of_isAbsolute habsolute]; exact fun h => hsign h.1)]
  have hexpand : s.expandHome (Path.parse spelling) = .ok (Path.parse spelling) := by
    unfold expandHome
    rw [if_pos habsolute]
  rw [mapPath_of_expandHome hzero hbelow hexpand, if_pos habsolute]

end Surroundings

end VaultConsole
