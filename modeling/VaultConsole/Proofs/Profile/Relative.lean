import VaultConsole.Proofs.Profile.Settled

/-!
# Relative spellings

A spelling that begins neither at the root nor with a sign is relative: it says what the spelling says
that puts the directory of the profile and a slash in front of it, and from nowhere it says nothing.
There is one exception. The sign of the program is looked for in the spelling itself, but the tilde of
a home in the first name that is read, and `.` and slashes are no names. So a tilde behind them counts
as if it stood in front, from wherever the spelling is seen.

* `Disk.IsNameable`: texts that the system has a name for.
* `Path.names_parse_join`: the names of one spelling behind another.
* `Surroundings.IsRelative`, `Surroundings.HidesHome`: relative spellings, and those of them with a
  tilde behind dots.
* `Surroundings.mapPath_joined`: without such a tilde a relative spelling says what its absolute
  spelling says.
* `Surroundings.seenFrom`: **what every relative spelling says.**
-/

namespace VaultConsole

namespace Disk

/-- The system has a name for a text: no code point of it is zero, and a surrogate in it stands for a
byte. -/
def IsNameable (t : Text) : Prop :=
  ∀ c ∈ t, c.val ≠ 0 ∧ (c.isSurrogate = true → Name.isByte c = true)

/-- **The system can be asked about the path of a text just if it has a name for the text.** What is
dropped from a text when it is read are slashes and dots, and there is nothing wrong with those. -/
theorem unaskable?_parse_iff (t : Text) : unaskable? (Path.parse t) = none ↔ IsNameable t := by
  have hjoin : Text.joinWith [Path.slash] (Text.splitOn Path.slash t) = t := Text.joinWith_splitOn _ t
  rw [unaskable?_eq_none_iff_names]
  constructor
  · intro h c hc
    have hgood : (c.isSurrogate && !Name.isByte c) = false ∧ (c.val == 0) = false := by
      rw [← hjoin] at hc
      rcases Text.mem_joinWith hc with hslash | ⟨piece, hpiece, hc⟩
      · rw [List.mem_singleton.1 hslash]
        decide
      · by_cases hname : Path.isName piece = true
        · exact h piece (List.mem_filter.2 ⟨hpiece, hname⟩) c hc
        · -- a piece that is no name is empty or a dot
          have hpiece : piece = [] ∨ piece = Path.here := by
            simpa [Path.isName, ← or_iff_not_imp_left] using hname
          have hdots : ∀ c ∈ Path.here,
              (c.isSurrogate && !Name.isByte c) = false ∧ (c.val == 0) = false := by decide
          rcases hpiece with rfl | rfl
          · exact absurd hc List.not_mem_nil
          · exact hdots c hc
    simpa using hgood.symm
  · intro h name hname c hc
    have hpiece : name ∈ Text.splitOn Path.slash t := (List.mem_filter.1 hname).1
    have hmem : c ∈ t := by
      rw [← hjoin]
      exact Text.mem_joinWith_of_mem hpiece hc
    simpa using (h c hmem).symm

end Disk

namespace Path

/-- **One spelling behind another**: the names of both, one after the other. -/
theorem names_parse_join (t rest : Text) :
    (parse (t ++ slash :: rest)).names = (parse t).names ++ (parse rest).names := by
  unfold parse
  simp only [Text.splitOn_append_cons, List.filter_append]

end Path

namespace Surroundings

open VaultConsole.Path (slash)

/-- A relative spelling: it begins neither at the root nor with the tilde of a home nor with the sign of
the program. A name that only begins with this sign is no exception. -/
structure IsRelative (spelling : Text) : Prop where
  root : ¬ [slash] <+: spelling
  home : ¬ [tilde] <+: spelling
  program : spelling ≠ [programSign]
  below : ¬ [programSign, slash] <+: spelling

/-- The first name of a spelling begins with a tilde. In a relative spelling dots and slashes are in
front of it. -/
def HidesHome (spelling : Text) : Prop :=
  ∃ name rest, (Path.parse spelling).names = (tilde :: name) :: rest

variable {s : Surroundings} {dir spelling : Text}

theorem IsRelative.belowProgram? (h : IsRelative spelling) : belowProgram? spelling = none := by
  rcases spelling with _ | ⟨c, _ | ⟨d, rest⟩⟩
  · rfl
  · have hc : c ≠ programSign := fun hc => h.program (by rw [hc])
    simp [Surroundings.belowProgram?, hc]
  · have hcd : ¬ (c = programSign ∧ d = slash) := by
      rintro ⟨rfl, rfl⟩
      exact h.below ⟨rest, rfl⟩
    simp [Surroundings.belowProgram?, hcd]

theorem IsRelative.isAbsolute (h : IsRelative spelling) : (Path.parse spelling).isAbsolute = false := by
  have hroot := h.root
  rw [← Path.isAbsolute_parse_iff] at hroot
  simpa using hroot

/-- Where no tilde is in front there is no home to put in its place. -/
theorem expandHome_of_not_hidesHome (h : ¬ HidesHome spelling) :
    s.expandHome (Path.parse spelling) = .ok (Path.parse spelling) := by
  unfold expandHome
  split
  · rfl
  · split
    · next c name rest hnames =>
      have hc : c ≠ tilde := by
        intro hc
        rw [hc] at hnames
        exact h ⟨name, rest, hnames⟩
      rw [if_neg hc]
    · rfl

/-- The names of a path are all that matters when it is resolved. -/
theorem resolve_congr {p q : Path} (h : p.names = q.names) : resolve p = resolve q := by
  unfold resolve
  rw [h]

/-- Spellings of one path that do not begin at the program are mapped alike. -/
theorem mapPath_congr {spelling' : Text} (hparse : Path.parse spelling = Path.parse spelling')
    (hzero : ∀ c ∈ spelling, c.val ≠ 0) (hzero' : ∀ c ∈ spelling', c.val ≠ 0)
    (hbelow : belowProgram? spelling = none) (hbelow' : belowProgram? spelling' = none)
    (profileDir : Option Text) : s.mapPath spelling profileDir = s.mapPath spelling' profileDir := by
  have hnone : ¬ (spelling.any (·.val == 0) = true) := by simpa using hzero
  have hnone' : ¬ (spelling'.any (·.val == 0) = true) := by simpa using hzero'
  unfold mapPath
  rw [if_neg hnone, if_neg hnone', hbelow, hbelow', hparse]

section
variable (hrelative : IsRelative spelling) (hzero : ∀ c ∈ spelling, c.val ≠ 0)
  (hhides : ¬ HidesHome spelling)
include hrelative hzero hhides

/-- From nowhere a relative spelling says nothing. -/
theorem mapPath_nowhere : s.mapPath spelling none = .error .relativeProfilePath := by
  have hexpand := expandHome_of_not_hidesHome (s := s) hhides
  rw [mapPath_of_expandHome hzero hrelative.belowProgram? hexpand, hrelative.isAbsolute]
  rfl

/-- From a directory a relative spelling is below that directory. -/
theorem mapPath_from (dir : Text) :
    s.mapPath spelling (some dir) = resolve ((Path.parse dir).append (Path.parse spelling)) := by
  have hexpand := expandHome_of_not_hidesHome (s := s) hhides
  rw [mapPath_of_expandHome hzero hrelative.belowProgram? hexpand, hrelative.isAbsolute]
  rfl

/-- **A relative spelling says what the absolute spelling says** that puts the directory in front. -/
theorem mapPath_joined (hdir : [slash] <+: dir) (hnameable : ∀ c ∈ dir, c.val ≠ 0)
    (profileDir : Option Text) :
    s.mapPath spelling (some dir) = s.mapPath (dir ++ slash :: spelling) profileDir := by
  have habsolute : (Path.parse (dir ++ slash :: spelling)).isAbsolute = true :=
    (Path.isAbsolute_parse_iff _).2 (hdir.trans (List.prefix_append dir _))
  have hnonzero : ∀ c ∈ dir ++ slash :: spelling, c.val ≠ 0 := by
    intro c hc
    rw [List.mem_append, List.mem_cons] at hc
    rcases hc with hc | rfl | hc
    · exact hnameable c hc
    · decide
    · exact hzero c hc
  have hnames : ((Path.parse dir).append (Path.parse spelling)).names =
      (Path.parse (dir ++ slash :: spelling)).names := by
    rw [Path.append, hrelative.isAbsolute, Path.names_parse_join]
    rfl
  rw [mapPath_from hrelative hzero hhides, mapPath_of_isAbsolute habsolute hnonzero]
  exact resolve_congr hnames

end

/-- A tilde behind dots counts as one in front: the spelling is mapped as it is once they are dropped,
and then the tilde begins it. -/
theorem mapPath_of_hidesHome (hrelative : IsRelative spelling) (hzero : ∀ c ∈ spelling, c.val ≠ 0)
    (hhides : HidesHome spelling) :
    [tilde] <+: (Path.parse spelling).text ∧
      ∀ profileDir, s.mapPath spelling profileDir = s.mapPath (Path.parse spelling).text profileDir := by
  obtain ⟨name, rest, hnames⟩ := hhides
  have hslashes : (Path.parse spelling).slashes = 0 := by
    simpa [Path.isAbsolute] using hrelative.isAbsolute
  obtain ⟨tail, htail⟩ := Text.joinWith_cons_append [slash] (tilde :: name) rest
  have htext : (Path.parse spelling).text = tilde :: (name ++ tail) := by
    unfold Path.text
    rw [if_neg (by simp [hnames]), hslashes, hnames, htail]
    rfl
  have hbelow : belowProgram? (Path.parse spelling).text = none := by
    have hsign : tilde ≠ programSign := by decide
    rw [htext]
    cases name ++ tail <;> simp [Surroundings.belowProgram?, hsign]
  have hzero' : ∀ c ∈ (Path.parse spelling).text, c.val ≠ 0 := by
    have hdots : ∀ c ∈ Path.here, c.val ≠ 0 := by decide
    intro c hc
    rcases Path.mem_text_parse hc with hc | rfl | hc
    · exact hzero c hc
    · decide
    · exact hdots c hc
  have hparse : Path.parse spelling = Path.parse (Path.parse spelling).text :=
    (Path.parse_text_of_isRead (Path.isRead_parse spelling)).symm
  refine ⟨by rw [htext]; exact ⟨name ++ tail, rfl⟩, ?_⟩
  exact mapPath_congr hparse hzero hzero' hrelative.belowProgram? hbelow

/-- What a relative spelling says, as seen from a directory. -/
structure SeenFrom (s : Surroundings) (dir spelling : Text) : Prop where
  /-- It is mapped to what the absolute spelling is mapped to, where the system has names for both its
  parts. -/
  joined : ¬ HidesHome spelling → Disk.IsNameable dir → Disk.IsNameable spelling →
    ∃ t, s.mapPath spelling (some dir) = .ok t ∧
      ∀ profileDir, s.mapPath (dir ++ slash :: spelling) profileDir = .ok t
  /-- Where the system has no name for one of them, both spellings are refused. -/
  refused : ¬ HidesHome spelling → ¬ (Disk.IsNameable dir ∧ Disk.IsNameable spelling) →
    (∃ failure, s.mapPath spelling (some dir) = .error failure) ∧
      ∀ profileDir, ∃ failure, s.mapPath (dir ++ slash :: spelling) profileDir = .error failure
  /-- From nowhere it is refused as a relative path. -/
  nowhere : ¬ HidesHome spelling →
    s.mapPath spelling none = .error .relativeProfilePath ∧ Failure.relativeProfilePath.kind = .config
  /-- With a tilde behind dots it says what it says without the dots, from wherever it is seen. -/
  hidden : HidesHome spelling → [tilde] <+: (Path.parse spelling).text ∧
    ∀ profileDir, s.mapPath spelling profileDir = s.mapPath (Path.parse spelling).text profileDir

/-- The system can be asked about one path behind another just if it has names for both. -/
theorem unaskable?_append_iff (h : (Path.parse spelling).isAbsolute = false) :
    Disk.unaskable? ((Path.parse dir).append (Path.parse spelling)) = none ↔
      Disk.IsNameable dir ∧ Disk.IsNameable spelling := by
  have hnames : ((Path.parse dir).append (Path.parse spelling)).names =
      (Path.parse dir).names ++ (Path.parse spelling).names := by
    rw [Path.append, h]
    rfl
  rw [← Disk.unaskable?_parse_iff, ← Disk.unaskable?_parse_iff]
  simp only [Disk.unaskable?_eq_none_iff_names, hnames, List.forall_mem_append]

/-- **What a relative spelling says.** From every directory it says what its absolute spelling says, but
for spellings that hide a tilde behind dots: they begin at a home. -/
theorem seenFrom (s : Surroundings) (hdir : [slash] <+: dir) (hrelative : IsRelative spelling)
    (hzero : ∀ c ∈ spelling, c.val ≠ 0) : SeenFrom s dir spelling where
  joined hhides hnameable hnameable' := by
    have hjoined := mapPath_joined (s := s) hrelative hzero hhides hdir fun c hc => (hnameable c hc).1
    have hask := (unaskable?_append_iff hrelative.isAbsolute).2 ⟨hnameable, hnameable'⟩
    have hmapped : s.mapPath spelling (some dir) =
        .ok ((Path.parse dir).append (Path.parse spelling)).resolve.text := by
      rw [mapPath_from hrelative hzero hhides, resolve_eq hask]
    refine ⟨_, hmapped, fun profileDir => ?_⟩
    rw [← hjoined profileDir, hmapped]
  refused hhides hnot := by
    have hask : Disk.unaskable? ((Path.parse dir).append (Path.parse spelling)) ≠ none :=
      fun hask => hnot ((unaskable?_append_iff hrelative.isAbsolute).1 hask)
    obtain ⟨failure, hfails, -⟩ := isUnreachable_resolve hask
    have hmapped : s.mapPath spelling (some dir) = .error failure := by
      rw [mapPath_from hrelative hzero hhides, hfails]
    refine ⟨⟨failure, hmapped⟩, fun profileDir => ?_⟩
    by_cases hdirzero : ∀ c ∈ dir, c.val ≠ 0
    · have hjoined := mapPath_joined (s := s) hrelative hzero hhides hdir hdirzero profileDir
      exact ⟨failure, by rw [← hjoined, hmapped]⟩
    · -- a zero in the directory is refused before anything else
      have hjoinedzero : ¬ ∀ c ∈ dir ++ slash :: spelling, c.val ≠ 0 :=
        fun h => hdirzero fun c hc => h c (List.mem_append_left _ hc)
      exact ⟨_, mapPath_of_zero hjoinedzero profileDir⟩
  nowhere hhides := ⟨mapPath_nowhere hrelative hzero hhides, rfl⟩
  hidden := mapPath_of_hidesHome hrelative hzero

/-- Neither a name that begins with the sign of the program nor a tilde inside a name is a sign; a tilde
behind dots is one. -/
theorem seenFrom_sampleHouse :
    (SeenFrom sampleHouse "/mnt/./p" "@x/../.~/v" ∧
      sampleHouse.mapPath "@x/../.~/v" (some "/mnt/./p") = .ok "/mnt/p/.~/v" ∧
      ∀ profileDir, sampleHouse.mapPath "/mnt/./p/@x/../.~/v" profileDir = .ok "/mnt/p/.~/v") ∧
    SeenFrom sampleHouse "/mnt" ".//./~bob/v" ∧
      ∀ profileDir, sampleHouse.mapPath ".//./~bob/v" profileDir = .ok "/mnt/bob/v" := by
  have hvisible : SeenFrom sampleHouse "/mnt/./p" "@x/../.~/v" :=
    seenFrom sampleHouse (by decide) ⟨by decide, by decide, by decide, by decide⟩ (by decide)
  have hbehind : SeenFrom sampleHouse "/mnt" ".//./~bob/v" :=
    seenFrom sampleHouse (by decide) ⟨by decide, by decide, by decide, by decide⟩ (by decide)
  have hmapped : sampleHouse.mapPath "@x/../.~/v" (some "/mnt/./p") = .ok "/mnt/p/.~/v" := by
    decide +kernel
  have hnot : ¬ HidesHome "@x/../.~/v" := by
    rintro ⟨name, rest, hnames⟩
    have hfirst : (Path.parse "@x/../.~/v").names.head? = some ("@x" : Text) := by decide
    rw [hnames] at hfirst
    cases hfirst
  have hhides : HidesHome ".//./~bob/v" := ⟨"bob", ["v"], by decide⟩
  obtain ⟨t, ht, hjoined⟩ := hvisible.joined hnot (by unfold Disk.IsNameable; decide)
    (by unfold Disk.IsNameable; decide)
  rw [hmapped] at ht
  cases ht
  refine ⟨⟨hvisible, hmapped, hjoined⟩, hbehind, fun profileDir => ?_⟩
  have htext : (Path.parse ".//./~bob/v").text = ("~bob/v" : Text) := by decide
  have hhome : sampleHouse.mapPath "~bob/v" none = .ok "/mnt/bob/v" := by decide +kernel
  rw [(hbehind.hidden hhides).2 profileDir, htext]
  -- from a home it says the same from everywhere
  cases profileDir with
  | none => exact hhome
  | some dir => exact mapPath_of_nowhere hhome dir

/-- **A relative spelling that does not say what its absolute spelling says**: a tilde behind a dot leads
to the home, also from nowhere. -/
theorem exists_unlike_joined :
    [slash] <+: ("/mnt" : Text) ∧ Disk.IsNameable "/mnt" ∧ IsRelative "./~/x" ∧ Disk.IsNameable "./~/x" ∧
      sampleHouse.mapPath "./~/x" (some "/mnt") = .ok "/home/ada/x" ∧
      sampleHouse.mapPath "/mnt/./~/x" none = .ok "/mnt/~/x" ∧
      sampleHouse.mapPath "./~/x" none = .ok "/home/ada/x" := by
  have hrelative : IsRelative "./~/x" := ⟨by decide, by decide, by decide, by decide⟩
  refine ⟨by decide, ?_, hrelative, ?_, ?_, ?_, ?_⟩
  · unfold Disk.IsNameable
    decide
  · unfold Disk.IsNameable
    decide
  · decide +kernel
  · decide +kernel
  · decide +kernel

end Surroundings

end VaultConsole
