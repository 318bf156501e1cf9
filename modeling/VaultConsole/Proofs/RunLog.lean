import Mathlib.Data.List.Perm.Subperm
import VaultConsole.Proofs.Profile.Paths
import VaultConsole.Proofs.Store.Saving
import VaultConsole.Proofs.Text.Digits
import VaultConsole.RunLog

/-!
# Paths of run logs

The log of a run gets a path at which nothing is: the name of the moment, or that name with the least
number that is free. The search for it ends, since the names with different numbers are different and
there is only so much on a disk. What was handed out and made is there from then on, so no path is handed
out twice. Only the system can be in the way: it takes no name and no path that is too long.

* `RunLog.Search`: the search for a free number, without a bound on it.
* `RunLog.search_firstFree`: **the search ends**, and where it ends.
* `RunLog.Fits`: paths that are not too long.
* `RunLog.Calls`: calls for paths, with all that may happen between them.
* `RunLog.fresh`: **the path of a run log is the first one that is free, and no two are the same.**
-/

namespace VaultConsole

open Disk

/-! ## What is there -/

namespace Disk

variable {disk disk' : Disk} {path : Path} {place : Place}

/-- There is something at a path. -/
def IsThere (disk : Disk) (path : Path) : Prop := disk.holds path = .ok true

/-- What is there stays there. -/
def Keeps (disk disk' : Disk) : Prop := ∀ path, IsThere disk path → IsThere disk' path

theorem isThere_iff : IsThere disk path ↔ ∃ place node, walk disk path = .ok place ∧ node? disk place = some node := by
  unfold IsThere holds
  cases hw : walk disk path with
  | ok place =>
    simp only [Except.ok.injEq, Option.isSome_iff_exists]
    constructor
    · rintro ⟨node, hn⟩
      exact ⟨place, node, rfl, hn⟩
    · rintro ⟨place, node, rfl, hn⟩
      exact ⟨node, hn⟩
  | error problem =>
    simp only [reduceCtorEq, false_and, exists_false, iff_false]
    split <;> simp_all

theorem Extends.keeps (h : Extends disk disk') : Keeps disk disk' := by
  intro path hthere
  obtain ⟨place, node, hw, hn⟩ := isThere_iff.1 hthere
  exact isThere_iff.2 ⟨place, node, walk_of_keeps (fun p hp => h p _ hp) hw, h place node hn⟩

/-- Where a way ends at a directory, it goes on from there. -/
theorem walkFrom_append {start : Place} {names rest : List Text}
    (h : walkFrom disk start names = .ok place) :
    walkFrom disk start (names ++ rest) = walkFrom disk place rest := by
  induction names generalizing start with
  | nil =>
    cases h
    rfl
  | cons name more ih =>
    rw [walkFrom] at h
    rw [List.cons_append, walkFrom]
    split at h
    · cases h
    · cases h
    · next hn =>
      split at h
      · rw [if_pos ‹_›]
        exact ih h
      · rw [if_neg ‹_›]
        simp only at h ⊢
        split at h
        · cases h
        · rw [if_neg ‹_›]
          exact ih h

/-- The way to a directory that is there. -/
theorem exists_walk_of_isDirectory (h : isDirectory disk path = true) :
    ∃ place, unaskable? path = none ∧ walkFrom disk [] path.names = .ok place ∧
      node? disk place = some .directory := by
  unfold isDirectory walk at h
  split at h
  · cases h
  · next place hw =>
    split at hw
    · cases hw
    · next hask =>
      split at hw
      · cases hw
      · split at hw <;> cases hw
        exact ⟨place, hask, ‹_›, by simpa using h⟩

/-- The bytes of digits tell the digits. -/
theorem Name.ofText_of_digits {t : Text} (h : ∀ c ∈ t, c.isAsciiDigit = true) :
    Name.ofText t = t.map fun c => c.val.toUInt8 := by
  unfold Name.ofText
  rw [List.map_eq_flatMap]
  refine List.flatMap_congr fun c hc => ?_
  have hdigit := h c hc
  simp only [CodePoint.isAsciiDigit, Bool.and_eq_true, decide_eq_true_eq] at hdigit
  have hbyte : ¬ (Name.isByte c = true) := by
    simp only [Name.isByte, Bool.and_eq_true, decide_eq_true_eq]
    omega
  rw [Name.bytesOf, if_neg hbyte, Text.Utf8.encodePoint]
  exact if_pos (by omega)

end Disk

namespace RunLog

variable {disk : Disk} {directory : Path} {t : Timestamp} {number number' : Nat} {place : Place}

/-! ## Names of logs -/

/-- What follows the moment in the name of a log. -/
def suffix (number : Nat) : Text := if number = 0 then [] else "_" ++ Text.ofNat number

theorem fileName_eq (t : Timestamp) (number : Nat) :
    fileName t number = "vaultterm_" ++ momentText t ++ suffix number ++ ".log" := rfl

/-- A digit, or one of the other code points in the names of logs. -/
def IsOfName (c : CodePoint) : Prop := c.isAsciiDigit = true ∨ c ∈ ("vaulterm_-.log" : Text)

/-- There is nothing in the name of a log that would mean something to the system. -/
theorem IsOfName.plain {c : CodePoint} (h : IsOfName c) :
    c ≠ Path.slash ∧ (c.isSurrogate && !Name.isByte c) = false ∧ (c.val == 0) = false := by
  rcases h with hdigit | hc
  · simp only [CodePoint.isAsciiDigit, Bool.and_eq_true, decide_eq_true_eq] at hdigit
    refine ⟨?_, ?_, by simp; omega⟩
    · rintro rfl
      exact absurd hdigit (by decide)
    · have hsurrogate : c.isSurrogate = false := by
        simp only [CodePoint.isSurrogate, Bool.and_eq_false_iff, decide_eq_false_iff_not]
        omega
      rw [hsurrogate, Bool.false_and]
  · revert c
    decide

theorem isOfName_of_mem_fileName (t : Timestamp) (number : Nat) : ∀ c ∈ fileName t number, IsOfName c := by
  have hpadded : ∀ width n, ∀ c ∈ Text.padded width n, IsOfName c :=
    fun _ _ _ hc => .inl (Text.isAsciiDigit_of_mem_padded hc)
  have hnumber : ∀ n, ∀ c ∈ Text.ofNat n, IsOfName c := fun n => Text.ofNat_eq_padded n ▸ hpadded 0 n
  have hword : ∀ word : Text, (∀ c ∈ word, c ∈ ("vaulterm_-.log" : Text)) → ∀ c ∈ word, IsOfName c :=
    fun _ hword c hc => .inr (hword c hc)
  have hsuffix : ∀ c ∈ suffix number, IsOfName c := by
    unfold suffix
    split
    · exact fun _ hc => absurd hc List.not_mem_nil
    · rw [List.forall_mem_append]
      exact ⟨hword "_" (by decide), hnumber number⟩
  have hdash := hword "-" (by decide)
  rw [fileName_eq]
  simp only [momentText, Timestamp.Wall.dateText, Timestamp.Wall.timeText, List.forall_mem_append]
  exact ⟨⟨⟨hword "vaultterm_" (by decide), ⟨⟨⟨⟨⟨hnumber _, hdash⟩, hpadded 2 _⟩, hdash⟩, hpadded 2 _⟩,
    hword "_" (by decide)⟩, ⟨⟨⟨hpadded 2 _, hdash⟩, hpadded 2 _⟩, hdash⟩, hpadded 2 _⟩, hsuffix⟩,
    hword ".log" (by decide)⟩

/-- A log has a name of its own. -/
theorem isName_fileName (t : Timestamp) (number : Nat) :
    Path.isName (fileName t number) = true ∧ fileName t number ≠ Path.above := by
  have hbegins : ∃ rest, fileName t number = CodePoint.ofChar 'v' :: rest := by
    rw [fileName_eq, List.append_assoc, List.append_assoc]
    exact ⟨_, rfl⟩
  obtain ⟨rest, hrest⟩ := hbegins
  have hne : ∀ word : Text, word.head? ≠ some (CodePoint.ofChar 'v') → fileName t number ≠ word := by
    rintro word hword rfl
    exact hword (by rw [hrest, List.head?_cons])
  refine ⟨?_, hne _ (by decide)⟩
  have hhere : fileName t number ≠ Path.here := hne _ (by decide)
  have hempty : fileName t number ≠ [] := hne _ (by decide)
  simp [Path.isName, hhere, hempty]

/-- The bytes of a number tell the number. -/
theorem foldl_ofText_ofNat (n : Nat) :
    (Name.ofText (Text.ofNat n)).foldl (fun v b => v * 10 + (b.toNat - 48)) 0 = n := by
  have hdigits : ∀ c ∈ Text.ofNat n, c.isAsciiDigit = true := fun c hc =>
    Text.isAsciiDigit_of_mem_padded (Text.ofNat_eq_padded n ▸ hc)
  rw [Name.ofText_of_digits hdigits, List.foldl_map]
  conv_rhs => rw [← Text.foldl_padded 0 n, ← Text.ofNat_eq_padded]
  refine List.foldl_ext _ _ 0 fun v c hc => ?_
  have hdigit := hdigits c hc
  simp only [CodePoint.isAsciiDigit, Bool.and_eq_true, decide_eq_true_eq] at hdigit
  have hbyte : c.val.toUInt8.toNat = c.val := Nat.mod_eq_of_lt (by omega)
  rw [hbyte, CodePoint.digitValue]

/-- **Logs with different numbers have different names**, for the system as well. -/
theorem ofText_fileName_injective (t : Timestamp) : Function.Injective fun n => Name.ofText (fileName t n) := by
  intro n m h
  have hsuffix : Name.ofText (suffix n) = Name.ofText (suffix m) := by
    simp only [fileName_eq, Name.ofText, List.flatMap_append] at h
    exact List.append_cancel_left (List.append_cancel_right h)
  have hnone : ∀ k, Name.ofText ("_" ++ Text.ofNat k) ≠ [] := fun k => List.cons_ne_nil _ _
  unfold suffix at hsuffix
  split at hsuffix <;> split at hsuffix
  · omega
  · exact absurd hsuffix.symm (hnone m)
  · exact absurd hsuffix (hnone n)
  · simp only [Name.ofText, List.flatMap_append] at hsuffix
    have hdigits : Name.ofText (Text.ofNat n) = Name.ofText (Text.ofNat m) :=
      List.append_cancel_left hsuffix
    rw [← foldl_ofText_ofNat n, hdigits, foldl_ofText_ofNat m]

/-! ## Paths of logs -/

/-- The system takes the path of a log: neither its bytes nor those of the name are too many. -/
def Fits (directory : Path) (t : Timestamp) (number : Nat) : Prop :=
  (Name.ofText (candidate directory t number).text).length ≤ pathLimit ∧
    (Name.ofText (fileName t number)).length ≤ nameLimit

instance : Decidable (Fits directory t number) := inferInstanceAs (Decidable (_ ∧ _))

theorem isRead_candidate (h : directory.IsRead) (t : Timestamp) (number : Nat) :
    (candidate directory t number).IsRead := by
  refine ⟨h.1, fun name hname => ?_⟩
  rcases List.mem_append.1 hname with hname | hname
  · exact h.2 name hname
  · rw [List.mem_singleton.1 hname]
    exact ⟨(isName_fileName t number).1, fun hslash =>
      (isOfName_of_mem_fileName t number _ hslash).plain.1 rfl⟩

theorem unaskable?_candidate (h : unaskable? directory = none) (t : Timestamp) (number : Nat) :
    unaskable? (candidate directory t number) = none := by
  rw [unaskable?_eq_none_iff_names] at h ⊢
  intro name hname
  rcases List.mem_append.1 hname with hname | hname
  · exact h name hname
  · rw [List.mem_singleton.1 hname]
    exact fun c hc => (isOfName_of_mem_fileName t number c hc).plain.2

section
variable (hask : unaskable? directory = none) (hw : walkFrom disk [] directory.names = .ok place)
  (hn : node? disk place = some .directory)
include hask hw hn

/-- In a directory that is there, a log has its place, unless its path is too long. -/
theorem walk_candidate (t : Timestamp) (number : Nat) :
    walk disk (candidate directory t number) =
      if Fits directory t number then .ok (place ++ [Name.ofText (fileName t number)])
      else .error (.refused .nameTooLong (candidate directory t number).text) := by
  have hfrom : walkFrom disk [] (candidate directory t number).names =
      if nameLimit < (Name.ofText (fileName t number)).length then .error .nameTooLong
      else .ok (place ++ [Name.ofText (fileName t number)]) := by
    show walkFrom disk [] (directory.names ++ [fileName t number]) = _
    rw [walkFrom_append hw, walkFrom, hn]
    simp only [if_neg (isName_fileName t number).2]
    rfl
  unfold walk
  rw [unaskable?_candidate hask, hfrom]
  by_cases hpath : pathLimit < (Name.ofText (candidate directory t number).text).length
  · rw [if_neg fun h : Fits directory t number => absurd h.1 (by omega)]
    exact if_pos hpath
  · simp only [if_neg hpath]
    by_cases hname : nameLimit < (Name.ofText (fileName t number)).length
    · rw [if_pos hname, if_neg fun h : Fits directory t number => absurd h.2 (by omega)]
    · rw [if_neg hname, if_pos (show Fits directory t number from ⟨by omega, by omega⟩)]

/-- There is only so much on a disk: some number is free. -/
theorem exists_not_isThere (t : Timestamp) : ∃ number ≤ disk.length, ¬ IsThere disk (candidate directory t number) := by
  by_contra hall
  push Not at hall
  let log (number : Nat) : Place := place ++ [Name.ofText (fileName t number)]
  have hkeys : ∀ number ≤ disk.length, log number ∈ Table.keys disk := by
    intro number hle
    obtain ⟨found, node, hwalk, hnode⟩ := isThere_iff.1 (hall number hle)
    rw [walk_candidate hask hw hn] at hwalk
    split at hwalk
    · cases hwalk
      rw [node?, if_neg (List.append_ne_nil_of_right_ne_nil _ (List.cons_ne_nil _ _))] at hnode
      by_contra hmem
      rw [Table.get?_eq_none_iff.2 hmem] at hnode
      cases hnode
    · cases hwalk
  have hinjective : Function.Injective log := fun n m h =>
    ofText_fileName_injective t (List.singleton_injective (List.append_cancel_left h))
  -- as many places as there are numbers, all of them among those on the disk
  have hle : ((List.range (disk.length + 1)).map log).length ≤ (Table.keys disk).length := by
    refine (List.Nodup.subperm (List.nodup_range.map hinjective) fun found hfound => ?_).length_le
    obtain ⟨number, hnumber, rfl⟩ := List.mem_map.1 hfound
    exact hkeys number (by have := List.mem_range.1 hnumber; omega)
  rw [List.length_map, List.length_range, Table.keys, List.length_map] at hle
  omega

/-- A log that is not there has a free path, unless that is too long. -/
theorem holds_candidate {number : Nat} (hnone : ¬ IsThere disk (candidate directory t number)) :
    disk.holds (candidate directory t number) =
      if Fits directory t number then .ok false
      else .error (.refused .nameTooLong (candidate directory t number).text) := by
  have hwalk := walk_candidate hask hw hn t number
  by_cases hfits : Fits directory t number
  · rw [if_pos hfits] at hwalk ⊢
    unfold IsThere at hnone
    unfold holds at hnone ⊢
    rw [hwalk] at hnone ⊢
    simpa using hnone
  · rw [if_neg hfits] at hwalk ⊢
    unfold holds
    rw [hwalk]

end

/-! ## The search -/

/-- The search for a free number from one on. It goes on as long as something is there, without a bound on
the number. -/
inductive Search (disk : Disk) (directory : Path) (t : Timestamp) : Nat → Except Problem Nat → Prop
  | free {number : Nat} (h : disk.holds (candidate directory t number) = .ok false) :
    Search disk directory t number (.ok number)
  | taken {number : Nat} {result : Except Problem Nat} (h : IsThere disk (candidate directory t number))
    (hnext : Search disk directory t (number + 1) result) : Search disk directory t number result
  | refused {number : Nat} {problem : Problem}
    (h : disk.holds (candidate directory t number) = .error problem) :
    Search disk directory t number (.error problem)

/-- The path with a number, unless the system refuses it for its length. -/
def offer (directory : Path) (t : Timestamp) (number : Nat) : Except Problem Path :=
  if Fits directory t number then .ok (candidate directory t number)
  else .error (.refused .nameTooLong (candidate directory t number).text)

section
variable (hask : unaskable? directory = none) (hw : walkFrom disk [] directory.names = .ok place)
  (hn : node? disk place = some .directory)
include hask hw hn

/-- The search ends at the first number at which nothing is, with the path that this number has. -/
theorem Search.exists_least {number : Nat} {result : Except Problem Nat}
    (h : Search disk directory t number result) :
    ∃ last, number ≤ last ∧ (∀ k, number ≤ k → k < last → IsThere disk (candidate directory t k)) ∧
      ¬ IsThere disk (candidate directory t last) ∧
      result.map (candidate directory t) = offer directory t last := by
  induction h with
  | @free number h =>
    have hnone : ¬ IsThere disk (candidate directory t number) := by
      rw [IsThere, h]
      decide
    refine ⟨number, Nat.le_refl _, fun k hk hlt => absurd hlt (by omega), hnone, ?_⟩
    rw [holds_candidate hask hw hn hnone] at h
    unfold offer
    split at h
    · rw [if_pos ‹_›]
      rfl
    · cases h
  | @taken number result h hnext ih =>
    obtain ⟨last, hle, hless, hlast⟩ := ih
    refine ⟨last, by omega, fun k hk hlt => ?_, hlast⟩
    rcases Nat.eq_or_lt_of_le hk with rfl | hk
    · exact h
    · exact hless k hk hlt
  | @refused number problem h =>
    have hnone : ¬ IsThere disk (candidate directory t number) := by
      rw [IsThere, h]
      exact nofun
    refine ⟨number, Nat.le_refl _, fun k hk hlt => absurd hlt (by omega), hnone, ?_⟩
    rw [holds_candidate hask hw hn hnone] at h
    unfold offer
    split at h
    · cases h
    · cases h
      rw [if_neg ‹_›]
      rfl

end

/-- A bounded search is the search itself, unless something is there at all the numbers it tries. -/
theorem search_or_all (tries number : Nat) :
    Search disk directory t number (firstFree disk directory t tries number) ∨
      ∀ k, number ≤ k → k < number + tries → IsThere disk (candidate directory t k) := by
  induction tries generalizing number with
  | zero => exact .inr fun k hk hlt => absurd hlt (by omega)
  | succ tries ih =>
    rw [firstFree]
    rcases hholds : disk.holds (candidate directory t number) with problem | isThere
    · exact .inl (.refused hholds)
    · cases isThere with
      | false => exact .inl (.free hholds)
      | true =>
        rcases ih (number + 1) with hsearch | hall
        · exact .inl (.taken hholds hsearch)
        · refine .inr fun k hk hlt => ?_
          rcases Nat.eq_or_lt_of_le hk with rfl | hk
          · exact hholds
          · exact hall k hk (by omega)

/-- **The search ends** in a directory that is there: as many tries as there are things on the disk, and one
more, are never used up. -/
theorem search_firstFree (hdirectory : isDirectory disk directory = true) (t : Timestamp) :
    Search disk directory t 0 (firstFree disk directory t (disk.length + 1) 0) := by
  obtain ⟨place, hask, hw, hn⟩ := exists_walk_of_isDirectory hdirectory
  rcases search_or_all (disk.length + 1) 0 with hsearch | hall
  · exact hsearch
  · obtain ⟨number, hle, hnone⟩ := exists_not_isThere hask hw hn t
    exact absurd (hall number (Nat.zero_le _) (by omega)) hnone

/-! ## One call -/

variable {w w' : World} {path : Path}

/-- The world once the directory of a log was made. -/
def housed (directory : Path) (w : World) : World :=
  { w with disk := (w.disk.makeDirectories directory).2 }

/-- What a call gives at a time: the path with a number such that all lesser ones are taken. If the system
does not refuse it for its length, there is nothing at it. -/
structure Gives (directory : Path) (w : World) (t : Timestamp) (number : Nat) : Prop where
  taken : ∀ k < number, IsThere (housed directory w).disk (candidate directory t k)
  free : Fits directory t number →
    (housed directory w).disk.holds (candidate directory t number) = .ok false
  run : freshPath directory w = ((offer directory t number).mapError .ofDisk, housed directory w)

/-- A call makes the directory and searches it. -/
theorem freshPath_run (hmade : (w.disk.makeDirectories directory).1 = .ok ()) (hclock : w.wallNow = .ok t) :
    freshPath directory w =
      (((firstFree (housed directory w).disk directory t ((housed directory w).disk.length + 1) 0).map
        (candidate directory t)).mapError .ofDisk, housed directory w) := by
  have hmake : World.makeDirectories directory w = (.ok (), housed directory w) := Prod.ext hmade rfl
  have hnow : (housed directory w).wallNow = .ok t := hclock
  unfold freshPath
  simp only [Act.run_bind, Act.run_rename, hmake, Except.mapError, Act.after_ok, Act.run_state,
    Act.run_settle, hnow]
  cases firstFree (housed directory w).disk directory t ((housed directory w).disk.length + 1) 0 <;> rfl

/-- In a directory that is there or can be made, the search ends, and its end is what a call gives. -/
theorem exists_gives (hmade : (w.disk.makeDirectories directory).1 = .ok ()) (hclock : w.wallNow = .ok t) :
    ∃ number result, Search (housed directory w).disk directory t 0 result ∧
      result.map (candidate directory t) = offer directory t number ∧ Gives directory w t number := by
  have hdirectory : isDirectory (housed directory w).disk directory = true :=
    isDirectory_of_makeLevels hmade
  obtain ⟨place, hask, hw, hn⟩ := exists_walk_of_isDirectory hdirectory
  have hsearch := search_firstFree hdirectory t
  obtain ⟨number, -, htaken, hnone, hresult⟩ := hsearch.exists_least hask hw hn
  refine ⟨number, _, hsearch, hresult, fun k hk => htaken k (Nat.zero_le k) hk, fun hfits => ?_, ?_⟩
  · rw [holds_candidate hask hw hn hnone, if_pos hfits]
  · rw [freshPath_run hmade hclock, hresult]

/-- A log that is there has a path that is not too long. -/
theorem fits_of_isThere (hdirectory : isDirectory disk directory = true)
    (h : IsThere disk (candidate directory t number)) : Fits directory t number := by
  obtain ⟨place, hask, hw, hn⟩ := exists_walk_of_isDirectory hdirectory
  obtain ⟨found, node, hwalk, -⟩ := isThere_iff.1 h
  rw [walk_candidate hask hw hn] at hwalk
  split at hwalk
  · assumption
  · cases hwalk

/-- Where the name of a moment is too long already, there is no path for a log. -/
theorem freshPath_of_not_fits (hmade : (w.disk.makeDirectories directory).1 = .ok ())
    (hclock : w.wallNow = .ok t) (hlong : ¬ Fits directory t 0) :
    freshPath directory w =
      (.error (.ofDisk (.refused .nameTooLong (candidate directory t 0).text)), housed directory w) := by
  obtain ⟨number, -, -, -, hgives⟩ := exists_gives hmade hclock
  cases number with
  | zero =>
    rw [hgives.run, offer, if_neg hlong]
    rfl
  | succ number =>
    exact absurd (fits_of_isThere (isDirectory_of_makeLevels hmade) (hgives.taken 0 (Nat.succ_pos number)))
      hlong

/-- A call that gives a path gives one that is free. -/
structure Granted (directory : Path) (w : World) (t : Timestamp) (number : Nat) (path : Path) (w' : World) :
    Prop where
  world : w' = housed directory w
  path : path = candidate directory t number
  absent : ¬ IsThere w'.disk (candidate directory t number)
  fits : Fits directory t number
  isDirectory : Disk.isDirectory w'.disk directory = true

theorem exists_of_freshPath (h : freshPath directory w = (.ok path, w')) :
    ∃ t number, Granted directory w t number path w' := by
  have hrun := h
  unfold freshPath at hrun
  obtain ⟨_, w₁, hmade, hrun⟩ := Act.exists_of_run_bind hrun
  obtain ⟨w₂, w₃, hstate, hrun⟩ := Act.exists_of_run_bind hrun
  obtain ⟨t, w₄, hnow, -⟩ := Act.exists_of_run_bind hrun
  have hmade := Act.run_of_run_rename hmade
  have hfirst : (w.disk.makeDirectories directory).1 = .ok () := congrArg Prod.fst hmade
  have hclock : w.wallNow = .ok t := by
    cases (Prod.mk.inj hstate).1
    rw [← (Prod.mk.inj hmade).2] at hnow
    exact congrArg Prod.fst hnow
  obtain ⟨number, -, -, -, hgives⟩ := exists_gives hfirst hclock
  rw [hgives.run, offer] at h
  obtain ⟨hresult, rfl⟩ := Prod.mk.inj h
  split at hresult
  · next hfits =>
    cases hresult
    refine ⟨t, number, rfl, rfl, ?_, hfits, isDirectory_of_makeLevels hfirst⟩
    unfold IsThere
    rw [hgives.free hfits]
    decide
  · cases hresult

/-- **The log of a path that was given can be made**: it is there then, and all else still is. -/
theorem attach_of_freshPath (h : freshPath directory w = (.ok path, w')) :
    ∃ w'', attach path w' = (.ok (), w'') ∧ IsThere w''.disk path ∧ Keeps w'.disk w''.disk := by
  obtain ⟨t, number, hgranted⟩ := exists_of_freshPath h
  obtain ⟨place, hask, hw, hn⟩ := exists_walk_of_isDirectory hgranted.isDirectory
  have hparent : path.parent = directory := by
    rw [hgranted.path, Path.parent, candidate, List.dropLast_concat]
  have hwalk : walk w'.disk path = .ok (place ++ [Name.ofText (fileName t number)]) := by
    rw [hgranted.path, walk_candidate hask hw hn, if_pos hgranted.fits]
  have hnone : node? w'.disk (place ++ [Name.ofText (fileName t number)]) = none := by
    by_contra hsome
    obtain ⟨node, hnode⟩ := Option.ne_none_iff_exists'.1 hsome
    exact hgranted.absent (isThere_iff.2 ⟨_, node, hgranted.path ▸ hwalk, hnode⟩)
  have hwritable : writable w'.disk path = .ok (place ++ [Name.ofText (fileName t number)]) := by
    simp only [writable, hwalk, bind, Except.bind, hnone, List.dropLast_concat, hn]
  have happend : w'.disk.append [] path =
      .ok (Table.put (place ++ [Name.ofText (fileName t number)]) (.file []) w'.disk) := by
    simp only [append, hwritable, bind, Except.bind, hnone]
  have hmake : World.makeDirectories path.parent w' = (.ok (), w') := by
    unfold World.makeDirectories
    rw [hparent, makeDirectories_of_isDirectory hgranted.isDirectory]
  have hext := extends_put hnone (.file [])
  refine ⟨{ w' with disk := Table.put _ (.file []) w'.disk, runLog := some ⟨path, true⟩ }, ?_, ?_, hext.keeps⟩
  · unfold attach
    simp only [Act.run_bind, Act.run_rename, hmake, Except.mapError, Act.after_ok, Act.run_state,
      Act.run_settle, happend, Act.run_change]
  · refine isThere_iff.2 ⟨_, .file [], walk_of_keeps (fun p hp => hext p _ hp) hwalk, ?_⟩
    exact node?_put_self (List.append_ne_nil_of_right_ne_nil _ (List.cons_ne_nil _ _)) _ _

/-! ## Many calls -/

/-- Calls for paths, each for a directory of its own and at a time of its own. Before the next call, the log
of the last one was made. Whatever else may have changed, what was there is there. -/
inductive Calls : World → List Path → World → Prop
  | none (w : World) : Calls w [] w
  | next {w w₁ w₂ w₃ : World} {directory : Text} {path : Path} {paths : List Path}
    (hcall : freshPath (Path.parse directory) w = (.ok path, w₁)) (hmade : IsThere w₂.disk path)
    (hkept : Keeps w₁.disk w₂.disk) (hrest : Calls w₂ paths w₃) : Calls w (path :: paths) w₃

/-- The world after a call, once the log of the path that it gave was made. -/
def logged (directory path : Path) (w : World) : World := (attach path (freshPath directory w).2).2

/-- A call that is followed by making the log. -/
theorem Calls.next_logged {directory : Text} {paths : List Path}
    (hcall : (freshPath (Path.parse directory) w).1 = .ok path)
    (hrest : Calls (logged (Path.parse directory) path w) paths w') : Calls w (path :: paths) w' := by
  have hcall : freshPath (Path.parse directory) w = (.ok path, (freshPath (Path.parse directory) w).2) :=
    Prod.ext hcall rfl
  obtain ⟨w'', hrun, hmade, hkept⟩ := attach_of_freshPath hcall
  rw [logged, hrun] at hrest
  exact .next hcall hmade hkept hrest

/-- A path that a call gives was not there before the call. -/
theorem not_isThere_of_freshPath (h : freshPath directory w = (.ok path, w')) : ¬ IsThere w.disk path := by
  obtain ⟨t, number, hgranted⟩ := exists_of_freshPath h
  intro hthere
  refine hgranted.absent ?_
  rw [← hgranted.path, hgranted.world]
  exact (extends_makeDirectories w.disk directory).keeps path hthere

theorem isRead_of_freshPath (hread : directory.IsRead) (h : freshPath directory w = (.ok path, w')) :
    path.IsRead := by
  obtain ⟨t, number, hgranted⟩ := exists_of_freshPath h
  rw [hgranted.path]
  exact isRead_candidate hread t number

/-- Paths that calls give, none of which was there before. -/
theorem Calls.absent {paths : List Path} (h : Calls w paths w') :
    ∀ path ∈ paths, path.IsRead ∧ ¬ IsThere w.disk path := by
  induction h with
  | none w => exact fun path hpath => absurd hpath List.not_mem_nil
  | @next w w₁ w₂ w₃ directory path paths hcall hmade hkept hrest ih =>
    rw [List.forall_mem_cons]
    refine ⟨⟨isRead_of_freshPath (Path.isRead_parse directory) hcall, not_isThere_of_freshPath hcall⟩,
      fun other hother => ?_⟩
    obtain ⟨hread, habsent⟩ := ih other hother
    refine ⟨hread, fun hthere => habsent (hkept other ?_)⟩
    obtain ⟨t, number, hgranted⟩ := exists_of_freshPath hcall
    rw [hgranted.world]
    exact (extends_makeDirectories w.disk _).keeps other hthere

/-- No path is given twice, not even in another spelling. -/
theorem Calls.nodup {paths : List Path} (h : Calls w paths w') : (paths.map Path.text).Nodup := by
  induction h with
  | none w => exact List.nodup_nil
  | @next w w₁ w₂ w₃ directory path paths hcall hmade hkept hrest ih =>
    rw [List.map_cons, List.nodup_cons]
    refine ⟨fun hmem => ?_, ih⟩
    obtain ⟨other, hother, htext⟩ := List.mem_map.1 hmem
    obtain ⟨hread, habsent⟩ := hrest.absent other hother
    have hsame : other = path :=
      Path.eq_of_text hread (isRead_of_freshPath (Path.isRead_parse directory) hcall) htext
    exact habsent (hsame ▸ hmade)

/-! ## Fresh paths -/

/-- **The path of a run log is the first one that is free, and no two are the same.** In a directory that is
there or can be made, and at whatever time, the search for a number ends at the least one at which nothing
is. The call gives the path with this number, unless the system refuses it for its length. Of many calls
none gives a path that another one gave, and none a path at which something was before. -/
theorem fresh :
    (∀ (w : World) (directory : Path) (t : Timestamp),
      (w.disk.makeDirectories directory).1 = .ok () → w.wallNow = .ok t →
      ∃ number result, Search (housed directory w).disk directory t 0 result ∧
        result.map (candidate directory t) = offer directory t number ∧ Gives directory w t number) ∧
    ∀ (w w' : World) (paths : List Path), Calls w paths w' →
      (paths.map Path.text).Nodup ∧ ∀ path ∈ paths, ¬ IsThere w.disk path := by
  refine ⟨fun w directory t hmade hclock => exists_gives hmade hclock, fun w w' paths h => ⟨h.nodup, ?_⟩⟩
  exact fun path hpath => (h.absent path hpath).2

open Store (sampleMoment)

/-- A directory with logs of this moment: one without a number and one with the number two. -/
def sampleLogs : World :=
  World.fresh 0
    [([Name.ofText "logs"], .directory),
      ([Name.ofText "logs", Name.ofText (fileName sampleMoment 0)], .file []),
      ([Name.ofText "logs", Name.ofText (fileName sampleMoment 2)], .directory)]

theorem fresh_sampleLogs :
    ∃ w paths, Calls sampleLogs paths w ∧
      paths.map Path.text =
        ["/logs/vaultterm_1970-01-01_00-00-00_1.log", "/logs/vaultterm_1970-01-01_00-00-00_3.log"] ∧
      (paths.map Path.text).Nodup ∧ (∀ path ∈ paths, ¬ IsThere sampleLogs.disk path) ∧
      ∃ number result, Search (housed (Path.parse "/logs") sampleLogs).disk (Path.parse "/logs") sampleMoment
          0 result ∧
        result.map (candidate (Path.parse "/logs") sampleMoment) =
          offer (Path.parse "/logs") sampleMoment number ∧
        Gives (Path.parse "/logs") sampleLogs sampleMoment number := by
  have hcalls : Calls sampleLogs
      [candidate (Path.parse "/logs") sampleMoment 1, candidate (Path.parse "/logs") sampleMoment 3]
      (logged (Path.parse "/logs") (candidate (Path.parse "/logs") sampleMoment 3)
        (logged (Path.parse "/logs") (candidate (Path.parse "/logs") sampleMoment 1) sampleLogs)) :=
    .next_logged (by decide +kernel) (.next_logged (by decide +kernel) (.none _))
  have hmade : (sampleLogs.disk.makeDirectories (Path.parse "/logs")).1 = .ok () := by decide +kernel
  have hclock : sampleLogs.wallNow = .ok sampleMoment := by decide +kernel
  obtain ⟨hnodup, habsent⟩ := fresh.2 _ _ _ hcalls
  exact ⟨_, _, hcalls, by decide +kernel, hnodup, habsent, fresh.1 _ _ _ hmade hclock⟩

/-- A directory so deep down that the path of a log in it is too long. -/
def sampleDeep : Path :=
  ⟨1, List.replicate 15 (List.replicate 253 (CodePoint.ofChar 'a')) ++
    [List.replicate 251 (CodePoint.ofChar 'a')]⟩

@[inherit_doc sampleDeep] def sampleDepths : World :=
  World.fresh 0 ((List.range 16).map fun k => ((sampleDeep.names.take (k + 1)).map Name.ofText, .directory))

/-- The directory is there and it is empty, and still there is no path for a log in it. -/
theorem exists_refused_path :
    isDirectory sampleDepths.disk sampleDeep = true ∧ sampleDepths.wallNow = .ok sampleMoment ∧
      freshPath sampleDeep sampleDepths =
        (.error (.ofDisk (.refused .nameTooLong (candidate sampleDeep sampleMoment 0).text)), sampleDepths) := by
  have hdirectory : isDirectory sampleDepths.disk sampleDeep = true := by decide +kernel
  have hclock : sampleDepths.wallNow = .ok sampleMoment := by decide +kernel
  have hlong : ¬ Fits sampleDeep sampleMoment 0 := by decide +kernel
  have hmake := makeDirectories_of_isDirectory hdirectory
  have hhoused : housed sampleDeep sampleDepths = sampleDepths := by
    unfold housed
    rw [hmake]
  have hrun := freshPath_of_not_fits (congrArg Prod.fst hmake) hclock hlong
  rw [hhoused] at hrun
  exact ⟨hdirectory, hclock, hrun⟩

end RunLog

end VaultConsole
