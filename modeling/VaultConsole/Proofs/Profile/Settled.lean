import VaultConsole.Proofs.Profile.Usual

/-!
# Settled spellings

A place can be spelled in many ways, with `.` and `..` and more slashes than it takes, from a home or
from the directory of the program. Mapping leaves one spelling of each place, which begins at the root
and says the same wherever it is seen from.

* `Path.IsSettled`: spellings that are slashes and plain names.
* `Surroundings.mapPath_text`: a settled spelling is mapped to itself.
* `Surroundings.mapPath_of_nowhere`: what is mapped without a directory needs none.
* `Surroundings.mapPath_settles`: **what a spelling is mapped to is settled, and is mapped to itself from
  everywhere.**
-/

namespace VaultConsole

namespace Path

variable {p : Path}

/-- A spelling that is settled begins at the root. Names follow, with one slash between two of them, and
no name is empty, `.` or `..`. -/
def IsSettled (t : Text) : Prop :=
  ∃ names : List Text, (∀ name ∈ names, IsPlain name) ∧ t = slash :: Text.joinWith [slash] names

theorem isSettled_text (h : p.IsCanonical) : IsSettled p.text :=
  ⟨p.names, h.2, text_of_root h.1⟩

/-- A settled spelling is absolute. -/
theorem IsSettled.isAbsolute {t : Text} (h : IsSettled t) : (parse t).isAbsolute = true := by
  obtain ⟨names, -, rfl⟩ := h
  rw [← text_of_root (p := ⟨1, names⟩) rfl]
  exact isAbsolute_parse_text rfl

end Path

namespace Surroundings

variable {s : Surroundings} {spelling t : Text} {file : Path}

/-- **A settled spelling is mapped to itself**, wherever it is seen from. -/
theorem mapPath_text (hfile : file.IsCanonical) (hask : Disk.unaskable? file = none)
    (profileDir : Option Text) : s.mapPath file.text profileDir = .ok file.text := by
  have hzero : ∀ c ∈ file.text, c.val ≠ 0 := fun c hc => by
    simpa using ((Disk.unaskable?_eq_none_iff file).1 hask c hc).2
  rw [mapPath_of_isAbsolute (Path.isAbsolute_parse_text hfile.1) hzero, Path.parse_text hfile,
    resolve_eq hask, Path.resolve_of_isCanonical hfile]

/-- **What is mapped without a directory needs none**: it is mapped alike from every directory. -/
theorem mapPath_of_nowhere (h : s.mapPath spelling none = .ok t) (dir : Text) :
    s.mapPath spelling (some dir) = .ok t := by
  unfold mapPath at h ⊢
  split at h
  · cases h
  · next hzero =>
    rw [if_neg hzero]
    split at h
    · exact h
    · -- the path is absolute once a home is in its place, or there was nothing to see it from
      obtain ⟨p, hexpand, hrun⟩ := bind_eq_ok_iff.1 h
      refine bind_eq_ok_iff.2 ⟨p, hexpand, ?_⟩
      split at hrun
      · next habsolute =>
        rw [if_pos habsolute]
        exact hrun
      · cases hrun

/-- **What a spelling is mapped to is settled.** From wherever a spelling is seen, what it is mapped to
begins at the root and has no empty name, no `.` and no `..`; mapping that leaves it as it is, from
wherever that is seen; and a spelling that is mapped from nowhere is mapped alike from everywhere. -/
theorem mapPath_settles (hprogram : s.program.IsCanonical) (spelling : Text) :
    (∀ profileDir t, s.mapPath spelling profileDir = .ok t →
      Path.IsSettled t ∧ (Path.parse t).isAbsolute = true ∧ ∀ dir, s.mapPath t dir = .ok t) ∧
    ∀ t, s.mapPath spelling none = .ok t → ∀ dir, s.mapPath spelling (some dir) = .ok t := by
  refine ⟨fun profileDir t h => ?_, fun t h dir => mapPath_of_nowhere h dir⟩
  obtain ⟨file, hfile, rfl⟩ := exists_path_of_mapPath hprogram h
  have hask : Disk.unaskable? file = none := by
    have hask := unaskable?_mapPath h
    rwa [Path.parse_text hfile] at hask
  have hsettled := Path.isSettled_text hfile
  exact ⟨hsettled, hsettled.isAbsolute, mapPath_text hfile hask⟩

/-- A user at home, and a program that is elsewhere. -/
def sampleHouse : Surroundings :=
  { home := "/home/ada/", user := "ada", homes := [("bob", "//home/../mnt/bob")],
    program := ⟨1, ["opt", "vaultterm"]⟩ }

theorem mapPath_settles_sampleHouse :
    sampleHouse.mapPath ".././/..//x/" (some "/home/ada") = .ok "/x" ∧
      sampleHouse.mapPath "~bob/../v" none = .ok "/mnt/v" ∧
      sampleHouse.mapPath "@/../../../.." none = .ok "/" ∧
      Path.IsSettled "/x" ∧ (∀ dir, sampleHouse.mapPath "/x" dir = .ok "/x") ∧
      ∀ dir, sampleHouse.mapPath "~bob/../v" (some dir) = .ok "/mnt/v" := by
  have hprogram : sampleHouse.program.IsCanonical := by
    refine ⟨rfl, fun name hname => ?_⟩
    rcases List.mem_cons.1 hname with rfl | hname
    · refine ⟨?_, ?_, ?_, ?_⟩ <;> decide
    · cases List.mem_singleton.1 hname
      refine ⟨?_, ?_, ?_, ?_⟩ <;> decide
  have hdir : sampleHouse.mapPath ".././/..//x/" (some "/home/ada") = .ok "/x" := by decide +kernel
  have hhome : sampleHouse.mapPath "~bob/../v" none = .ok "/mnt/v" := by decide +kernel
  obtain ⟨hsettled, -, hagain⟩ := (mapPath_settles hprogram ".././/..//x/").1 _ _ hdir
  exact ⟨hdir, hhome, by decide +kernel, hsettled, hagain, (mapPath_settles hprogram "~bob/../v").2 _ hhome⟩

end Surroundings

end VaultConsole
