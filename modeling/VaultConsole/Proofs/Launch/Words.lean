import VaultConsole.CommandLine.Request

/-!
# The words that ask for a new profile

Behind the command that makes a profile stand the path of the profile and, if it is given, the name of its
user. A path or a name that looks like an option is not taken for a value: then there is no request.

* `Grammar.readOn_value`: an option takes the word behind it, or there is a problem.
* `Request.creating`: the words.
* `Request.read_creating`: **what the words ask for.**
-/

namespace VaultConsole

namespace CommandLine

namespace Found

@[simp] theorem value?_nothing (s : Setting) : nothing.value? s = none := rfl

/-- The last value of an option counts. -/
@[simp] theorem value?_addValue (s t : Setting) (word : Text) (f : Found) :
    (f.addValue t word).value? s =
      if t = s then some (if word = dividerWord then none else some word) else f.value? s := by
  unfold value? addValue
  rw [List.reverse_append, List.reverse_singleton, List.singleton_append, List.find?_cons]
  by_cases h : t = s <;> simp [h]

end Found

end CommandLine

namespace CommandLine.Grammar

variable {g : Grammar} {word value : Text} {words : List Text} {reading : Reading} {f : Found}

/-- Words are classified one by one until there is a divider. -/
theorem classifyAll_cons (g : Grammar) (word : Text) (words : List Text) :
    g.classifyAll (word :: words) = (g.classify word).bind fun reading =>
      if reading = .divider then .ok ((word, .divider) :: words.map fun word => (word, .plain))
      else (g.classifyAll words).map ((word, reading) :: ·) := by
  rw [classifyAll]
  cases g.classify word with
  | error problem => rfl
  | ok reading =>
    simp only [bind, Except.bind]
    cases reading <;> cases g.classifyAll words <;> rfl

/-- The first word is what it is by itself. -/
theorem exists_of_classifyAll_cons {readings : List (Text × Reading)}
    (h : g.classifyAll (word :: words) = .ok readings) :
    ∃ reading more, g.classify word = .ok reading ∧ readings = (word, reading) :: more ∧
      (reading ≠ .divider → g.classifyAll words = .ok more) := by
  rw [classifyAll_cons] at h
  cases hword : g.classify word with
  | error problem =>
    rw [hword] at h
    cases h
  | ok reading =>
    rw [hword] at h
    simp only [Except.bind] at h
    split at h
    · next hdivider =>
      cases h
      exact ⟨reading, _, rfl, by rw [hdivider], fun hne => absurd hdivider hne⟩
    · cases hwords : g.classifyAll words with
      | error problem =>
        rw [hwords] at h
        cases h
      | ok more =>
        rw [hwords] at h
        cases h
        exact ⟨reading, more, rfl, rfl, fun _ => rfl⟩

theorem map_fst_of_classifyAll {readings : List (Text × Reading)} (h : g.classifyAll words = .ok readings) :
    readings.map (·.1) = words := by
  induction words generalizing readings with
  | nil =>
    cases h
    rfl
  | cons word rest ih =>
    rw [classifyAll_cons] at h
    cases hword : g.classify word with
    | error problem =>
      rw [hword] at h
      cases h
    | ok reading =>
      rw [hword] at h
      simp only [Except.bind] at h
      split at h
      · cases h
        simp [Function.comp_def]
      · cases hrest : g.classifyAll rest with
        | error problem =>
          rw [hrest] at h
          cases h
        | ok more =>
          rw [hrest] at h
          cases h
          rw [List.map_cons, ih hrest]

/-- What words ask for after what was found already. -/
def readOn (g : Grammar) (words : List Text) (f : Found) : Except Stop Found :=
  match g.classifyAll words with
  | .error problem => .error (.problem problem)
  | .ok readings => g.readFrom readings f

/-- **An option takes the word behind it as its value**, or there is a problem with the words. -/
theorem readOn_value {s : Setting} {isLetter : Bool} (hrole : s.role = .value)
    (h : g.classify word = .ok (.option s isLetter none)) (value : Text) (words : List Text) (f : Found) :
    (value ≠ dividerWord ∧ g.readOn (word :: value :: words) f = g.readOn words (f.addValue s value)) ∨
      ∃ problem, g.readOn (word :: value :: words) f = .error (.problem problem) := by
  have hasked : g.unpack s isLetter none = .ok ⟨[], some (s, none)⟩ := by
    rw [unpack, unattached, hrole]
  have hbehind : g.readOn (word :: value :: words) f =
      match g.classifyAll (value :: words) with
      | .error problem => .error (.problem problem)
      | .ok readings => g.readFrom ((word, .option s isLetter none) :: readings) f := by
    rw [readOn, classifyAll_cons, h]
    cases g.classifyAll (value :: words) <;> rfl
  rw [hbehind]
  cases hall : g.classifyAll (value :: words) with
  | error problem => exact .inr ⟨problem, rfl⟩
  | ok readings =>
    obtain ⟨reading, more, hvalue, rfl, hmore⟩ := exists_of_classifyAll_cons hall
    cases reading with
    | plain =>
      refine .inl ⟨?_, ?_⟩
      · -- the divider is not plain
        rintro rfl
        rw [classify, if_pos rfl] at hvalue
        cases hvalue
      · rw [readOn, hmore nofun]
        simp only [readFrom, hasked]
        rfl
    | divider | option _ _ _ | unknown =>
      refine .inr ⟨.lacksValue s, ?_⟩
      simp only [readFrom, hasked]

end CommandLine.Grammar

namespace Request

open CommandLine

/-- The words behind the command that makes a profile. -/
def createWords (path : Text) (username : Option Text) : List Text :=
  "-p" :: path ::
    match username with
    | some name => ["-u", name]
    | none => []

/-- The words that ask for a new profile at a path, for a user if one is named. -/
def creating (path : Text) (username : Option Text) : List Text :=
  createCommand :: createWords path username

theorem readOn_createWords (path : Text) (username : Option Text) :
    (∃ f, createGrammar.readOn (createWords path username) .nothing = .ok f ∧ f.extras = [] ∧
        profileOf f = some path ∧ (f.value? usernameOption).join = username) ∨
      ∃ problem, createGrammar.readOn (createWords path username) .nothing = .error (.problem problem) := by
  have hpath : createGrammar.classify "-p" = .ok (.option profileOption true none) := by rfl
  have hname : createGrammar.classify "-u" = .ok (.option usernameOption true none) := by rfl
  have hdistinct : profileOption ≠ usernameOption := by decide
  unfold createWords
  rcases Grammar.readOn_value rfl hpath path _ .nothing with ⟨hvalue, hread⟩ | hproblem
  · rw [hread]
    cases username with
    | none =>
      refine .inl ⟨_, rfl, rfl, ?_, ?_⟩
      · simp [profileOf, hvalue]
      · simp [hdistinct]
    | some name =>
      rcases Grammar.readOn_value rfl hname name [] (Found.nothing.addValue profileOption path) with
        ⟨hvalue', hread'⟩ | hproblem
      · rw [hread']
        refine .inl ⟨_, rfl, rfl, ?_, ?_⟩
        · simp [profileOf, hdistinct.symm, hvalue]
        · simp [hvalue']
      · exact .inr hproblem
  · exact .inr hproblem

/-- The first word is the command, which all others are for. -/
theorem read_createCommand (words : List Text) :
    mainGrammar.read (createCommand :: words) =
        .ok { Found.nothing with command := some (createCommand, words) } ∨
      ∃ problem, mainGrammar.read (createCommand :: words) = .error (.problem problem) := by
  have hcommand : mainGrammar.classify createCommand = .ok .plain := by rfl
  unfold Grammar.read
  cases hall : mainGrammar.classifyAll (createCommand :: words) with
  | error problem => exact .inr ⟨problem, rfl⟩
  | ok readings =>
    have hwords := Grammar.map_fst_of_classifyAll hall
    obtain ⟨reading, more, hreading, rfl, -⟩ := Grammar.exists_of_classifyAll_cons hall
    cases hcommand.symm.trans hreading
    refine .inl ?_
    rw [← (List.cons.inj hwords).2]
    rfl

theorem mapError_ok_bind {ε : Type} (f : ε → Halt) (found : Found) (more : Found → Except Halt Request) :
    (Except.ok found).mapError f >>= more = more found := rfl

/-- The words behind a command are read by the grammar of that command. -/
theorem read_of_command {words rest : List Text} {command : Text}
    (hmain : mainGrammar.read words = .ok { Found.nothing with command := some (command, rest) }) :
    read words = (createGrammar.read rest).mapError (halt createGrammar createUsage createHelp) >>= fun f =>
      unlessExtra f.extras (.create (profileOf f) (f.value? usernameOption).join) := by
  unfold read
  rw [hmain, mapError_ok_bind]
  rfl

/-- **What the words ask for**: the new profile, unless there is a problem with them. -/
theorem read_creating (path : Text) (username : Option Text) :
    read (creating path username) = .ok (.create (some path) username) ∨
      ∃ title usage problem, read (creating path username) = .error (.problem title usage problem) := by
  rcases read_createCommand (createWords path username) with hmain | ⟨problem, hmain⟩
  · have hrest : read (creating path username) = _ := read_of_command hmain
    rcases readOn_createWords path username with ⟨f, hread, hextras, hpath, hname⟩ | ⟨problem, hread⟩
    · have hread : createGrammar.read (createWords path username) = .ok f := hread
      refine .inl ?_
      rw [hrest, hread, mapError_ok_bind, hextras, hpath, hname]
      rfl
    · have hread : createGrammar.read (createWords path username) = .error (.problem problem) := hread
      refine .inr ⟨createGrammar.title, createUsage, problem, ?_⟩
      rw [hrest, hread]
      rfl
  · have hread : mainGrammar.read (creating path username) = .error (.problem problem) := hmain
    refine .inr ⟨mainGrammar.title, mainUsage, problem, ?_⟩
    unfold read
    rw [hread]
    rfl

end Request

end VaultConsole
