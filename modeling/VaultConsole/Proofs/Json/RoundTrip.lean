import VaultConsole.Json.Limits
import VaultConsole.Proofs.Json.Numbers
import VaultConsole.Proofs.Json.Quoted

/-!
# Documents are read as they were written

A document that was written is read as it was, if no key repeats in an object. Two obstacles may keep it
from being read: a whole number with more digits than the reader takes, and an array or object inside more
others than it allows. The reader is followed value by value, with any text after the value that does not
go on with a number: what a value leaves is what came after it.

* `Json.Distinct`: no key repeats.
* `Json.readsBack`: a value in front of a text.
* `Json.parse_write`: **a document is read as it was written, or the first obstacle is met.**
-/

namespace VaultConsole.Json

def Obstacle.stop : Obstacle → Stop
  | tooManyDigits count => .tooManyDigits count
  | tooDeep isObject => .tooDeep isObject

def Obstacle.problem : Obstacle → Problem
  | tooManyDigits count => .tooManyDigits count
  | tooDeep isObject => .tooDeep isObject

/-- No key repeats in an object. -/
inductive Distinct : Json → Prop
  | null : Distinct null
  | bool (b : Bool) : Distinct (bool b)
  | int (i : Int) : Distinct (int i)
  | real (x : Binary64) : Distinct (real x)
  | text (t : Text) : Distinct (text t)
  | array {items : List Json} (h : ∀ item ∈ items, Distinct item) : Distinct (array items)
  | object {members : List (Text × Json)} (hkeys : (Table.keys members).Nodup)
    (h : ∀ member ∈ members, Distinct member.2) : Distinct (object members)

theorem obstacle?_text (n : Nat) (t : Text) : obstacle? n (text t) = none := by
  cases n <;> rfl

theorem obstacle?_array_eq_none_iff {n : Nat} {items : List Json} :
    obstacle? (n + 1) (array items) = none ↔ ∀ item ∈ items, obstacle? n item = none :=
  List.findSome?_eq_none_iff

theorem obstacle?_object_eq_none_iff {n : Nat} {members : List (Text × Json)} :
    obstacle? (n + 1) (object members) = none ↔ ∀ member ∈ members, obstacle? n member.2 = none :=
  List.findSome?_eq_none_iff

/-- With more room there are no more obstacles. -/
theorem obstacle?_eq_none_of_le {n m : Nat} (hle : n ≤ m) {value : Json} (h : obstacle? n value = none) :
    obstacle? m value = none := by
  induction n generalizing m value with
  | zero =>
    cases value with
    | array items => cases h
    | object members => cases h
    | _ => cases m <;> exact h
  | succ n ih =>
    obtain ⟨m, rfl⟩ : ∃ k, m = k + 1 := ⟨m - 1, by omega⟩
    cases value with
    | array items =>
      rw [obstacle?_array_eq_none_iff] at h ⊢
      exact fun item hitem => ih (Nat.le_of_succ_le_succ hle) (h item hitem)
    | object members =>
      rw [obstacle?_object_eq_none_iff] at h ⊢
      exact fun member hmember => ih (Nat.le_of_succ_le_succ hle) (h member hmember)
    | _ => exact h

/-- What the reader yields where an obstacle may be. -/
def met {α : Type} (found : α) : Option Obstacle → Except Stop α
  | none => .ok found
  | some obstacle => .error obstacle.stop

/-- A layout that escapes no more than it must, and puts nothing but blanks behind a colon. -/
structure Layout.IsRead (l : Layout) : Prop where
  plain : l.asciiOnly = false
  afterKey : ∃ blanks, l.afterKey = CodePoint.ofChar ':' :: blanks ∧ ∀ c ∈ blanks, isSpace c = true

theorem isRead_eventLayout : eventLayout.IsRead := ⟨rfl, [], rfl, List.forall_mem_nil _⟩

theorem isRead_fileLayout : fileLayout.IsRead :=
  ⟨rfl, [CodePoint.ofChar ' '], rfl, fun _ h => List.mem_singleton.1 h ▸ rfl⟩

section
variable (l : Layout) (depth : Nat)

/-- The text of a value at a depth of the indentation. -/
def textAt (value : Json) : Text := (tokensAt l depth value).flatten

/-- The text of the items of an array after the first one. -/
def itemsAt (items : List Json) : Text := (itemTokens l depth items).flatten

/-- The text of the members of an object after the first one. -/
def membersAt (members : List (Text × Json)) : Text := (memberTokens l depth members).flatten

/-- The text of a member, whose key is a quoted text. -/
def memberAt (member : Text × Json) : Text :=
  escaped l.asciiOnly member.1 ++ (l.afterKey ++ textAt l depth member.2)

theorem textAt_array_cons (item : Json) (rest : List Json) :
    textAt l depth (array (item :: rest)) =
      CodePoint.ofChar '[' :: (l.lineBreak (depth + 1) ++ (textAt l (depth + 1) item ++
        (itemsAt l (depth + 1) rest ++ (l.lineBreak depth ++ [CodePoint.ofChar ']'])))) := by
  simp [textAt, tokensAt, itemsAt, flatten_follow]
  rfl

theorem itemsAt_cons (item : Json) (rest : List Json) :
    itemsAt l depth (item :: rest) =
      CodePoint.ofChar ',' :: (l.lineBreak depth ++ (textAt l depth item ++ itemsAt l depth rest)) := by
  simp [textAt, itemTokens, itemsAt, flatten_follow]
  rfl

theorem textAt_object_cons (member : Text × Json) (rest : List (Text × Json)) :
    textAt l depth (object (member :: rest)) =
      CodePoint.ofChar '\x7b' :: (l.lineBreak (depth + 1) ++ (memberAt l (depth + 1) member ++
        (membersAt l (depth + 1) rest ++ (l.lineBreak depth ++ [CodePoint.ofChar '\x7d'])))) := by
  simp [textAt, tokensAt, membersAt, memberAt]
  rfl

theorem membersAt_cons (member : Text × Json) (rest : List (Text × Json)) :
    membersAt l depth (member :: rest) =
      CodePoint.ofChar ',' :: (l.lineBreak depth ++ (memberAt l depth member ++ membersAt l depth rest)) := by
  simp [textAt, memberTokens, membersAt, memberAt]
  rfl

end

variable {l : Layout} {n fuel : Nat} {rest : Text} {c : CodePoint}

/-! ## Blanks and ends -/

theorem isSpace_lineBreak (depth : Nat) : ∀ c ∈ l.lineBreak depth, isSpace c = true := by
  intro c hc
  unfold Layout.lineBreak at hc
  split at hc
  · cases hc
  · rcases List.mem_cons.1 hc with rfl | hc
    · rfl
    · rw [List.eq_of_mem_replicate hc]
      rfl

theorem skipSpace_append {blanks : Text} (h : ∀ c ∈ blanks, isSpace c = true) (t : Text) :
    skipSpace (blanks ++ t) = skipSpace t :=
  List.dropWhile_append_of_pos h

theorem skipSpace_cons (t : Text) (hc : isSpace c = false) : skipSpace (c :: t) = c :: t := by
  simp [skipSpace, hc]

theorem ends_cons (hc : c ∈ [CodePoint.ofChar ',', CodePoint.ofChar ']', CodePoint.ofChar '\x7d'])
    (t : Text) : Ends (c :: t) := by
  rintro _ ⟨⟩
  revert c
  decide

/-- A line break does not go on with a number, and what is after it counts if it is empty. -/
theorem ends_lineBreak (depth : Nat) (h : Ends rest) : Ends (l.lineBreak depth ++ rest) := by
  unfold Layout.lineBreak
  split
  · exact h
  · rintro _ ⟨⟩
    decide

/-! ## Beginnings -/

/-- A code point that a value may begin with: no blank, no closing bracket and no mark of an encoding. -/
def Opens (c : CodePoint) : Prop := isSpace c = false ∧ c ≠ ']' ∧ (c.val == 0xFEFF) = false

theorem opens_of_isAsciiDigit (h : c.isAsciiDigit = true) : Opens c := by
  simp only [CodePoint.isAsciiDigit, Bool.and_eq_true, decide_eq_true_eq] at h
  refine ⟨?_, ?_, ?_⟩
  · simp only [isSpace, Bool.or_eq_false_iff, beq_eq_false_iff_ne]
    omega
  · rintro rfl
    exact absurd h.2 (by decide)
  · rw [beq_eq_false_iff_ne]
    omega

theorem decimalText_begin {negative : Bool} {whole decimals : Text} {power : Option (Bool × Nat)}
    (hwhole : IsWhole whole) :
    ∃ c more, decimalText negative whole decimals power = c :: more ∧ Opens c := by
  obtain ⟨c, more, hcons, hdigit⟩ := hwhole.append_eq_cons (pointText decimals ++ powerText power)
  rw [decimalText, hcons]
  cases negative with
  | true => exact ⟨_, _, rfl, by decide, by decide, by decide⟩
  | false => exact ⟨_, _, rfl, opens_of_isAsciiDigit hdigit⟩

theorem realText_finite {negative : Bool} {biased : Fin 2047} {fraction : Fin Binary64.fractions} :
    realText (.finite negative biased fraction) = (Binary64.finite negative biased fraction).text := rfl

theorem textAt_begin (l : Layout) (depth : Nat) (value : Json) :
    ∃ c more, textAt l depth value = c :: more ∧ Opens c := by
  have hopens : ∀ c ∈ [CodePoint.ofChar 'n', CodePoint.ofChar 't', CodePoint.ofChar 'f',
      CodePoint.ofChar 'N', CodePoint.ofChar 'I', CodePoint.ofChar '-', CodePoint.ofChar '"',
      CodePoint.ofChar '[', CodePoint.ofChar '\x7b'], Opens c := by
    unfold Opens
    decide
  cases value with
  | null => exact ⟨_, _, rfl, hopens 'n' (by decide)⟩
  | bool b =>
    cases b with
    | true => exact ⟨_, _, rfl, hopens 't' (by decide)⟩
    | false => exact ⟨_, _, rfl, hopens 'f' (by decide)⟩
  | int i =>
    rw [textAt, tokensAt, List.flatten_singleton, ofInt_eq_decimalText]
    exact decimalText_begin (isWhole_ofNat _)
  | real x =>
    rw [textAt, tokensAt, List.flatten_singleton]
    cases x with
    | nan => exact ⟨_, _, rfl, hopens 'N' (by decide)⟩
    | infinite negative =>
      cases negative with
      | true => exact ⟨_, _, rfl, hopens '-' (by decide)⟩
      | false => exact ⟨_, _, rfl, hopens 'I' (by decide)⟩
    | finite negative biased fraction =>
      obtain ⟨whole, decimals, power, hwhole, -, -, htext, -⟩ :=
        Binary64.exists_decimalText negative biased fraction
      rw [realText_finite, htext]
      exact decimalText_begin hwhole
  | text t => exact ⟨_, _, rfl, hopens '"' (by decide)⟩
  | array items =>
    cases items with
    | nil => exact ⟨_, _, rfl, hopens '[' (by decide)⟩
    | cons item rest => exact ⟨_, _, textAt_array_cons l depth item rest, hopens '[' (by decide)⟩
  | object members =>
    cases members with
    | nil => exact ⟨_, _, rfl, hopens '\x7b' (by decide)⟩
    | cons member rest => exact ⟨_, _, textAt_object_cons l depth member rest, hopens '\x7b' (by decide)⟩

/-- A value after blanks begins where it is read. -/
theorem skipSpace_textAt (l : Layout) (depth : Nat) (value : Json) (rest : Text) :
    skipSpace (textAt l depth value ++ rest) = textAt l depth value ++ rest := by
  obtain ⟨c, more, hc, hb⟩ := textAt_begin l depth value
  rw [hc, List.cons_append, skipSpace_cons _ hb.1]

/-! ## Values that hold no others -/

/-- No word of the grammar begins like a number. -/
theorem named?_decimalText {negative : Bool} {whole decimals : Text} {power : Option (Bool × Nat)}
    (hwhole : IsWhole whole) : named? (decimalText negative whole decimals power ++ rest) = none := by
  have hwords : ∀ p ∈ namedValues, ∃ a b w, p.1 = a :: b :: w ∧ a.isAsciiDigit = false ∧
      b.isAsciiDigit = false := by
    intro p hp
    simp only [namedValues, List.mem_cons, List.not_mem_nil, or_false] at hp
    rcases hp with rfl | rfl | rfl | rfl | rfl | rfl <;> exact ⟨_, _, _, rfl, by decide, by decide⟩
  obtain ⟨c, more, hcons, hdigit⟩ := hwhole.append_eq_cons
    (pointText decimals ++ (powerText power ++ rest))
  rw [decimalText, List.append_assoc, List.append_assoc, List.append_assoc, hcons, named?,
    List.findSome?_eq_none_iff]
  rintro ⟨word, value⟩ hp
  obtain ⟨a, b, w, hword, ha, hb⟩ := hwords _ hp
  have hne : ∀ d : CodePoint, d.isAsciiDigit = false → (d == c) = false := by
    intro d hd
    rw [beq_eq_false_iff_ne]
    rintro rfl
    rw [hd] at hdigit
    cases hdigit
  have hprefix : word.isPrefixOf (Text.ofString (if negative then "-" else "") ++ c :: more) = false := by
    rw [show word = a :: b :: w from hword]
    cases negative with
    | true =>
      show ((a == '-') && ((b == c) && w.isPrefixOf more)) = false
      rw [hne b hb, Bool.false_and, Bool.and_false]
    | false =>
      show ((a == c) && (b :: w).isPrefixOf more) = false
      rw [hne a ha, Bool.false_and]
  simp [word?, hprefix]

theorem readValue_decimalText {negative : Bool} {whole decimals : Text} {power : Option (Bool × Nat)}
    (hwhole : IsWhole whole) :
    readValue (fuel + 1) n (decimalText negative whole decimals power ++ rest) =
      readNumber (decimalText negative whole decimals power ++ rest) := by
  have hnamed := @named?_decimalText rest negative whole decimals power hwhole
  obtain ⟨c, more, hcons, hc⟩ : ∃ c more, decimalText negative whole decimals power = c :: more ∧
      c ≠ '"' ∧ c ≠ '\x7b' ∧ c ≠ '[' := by
    obtain ⟨c, more, hcons, hdigit⟩ := hwhole.append_eq_cons (pointText decimals ++ powerText power)
    rw [decimalText, hcons]
    cases negative with
    | true => exact ⟨_, _, rfl, by decide, by decide, by decide⟩
    | false =>
      refine ⟨_, _, rfl, ?_, ?_, ?_⟩ <;>
        · rintro rfl
          cases hdigit
  rw [hcons, List.cons_append] at hnamed ⊢
  rw [readValue.eq_def]
  simp only [hnamed, hc, if_false]

theorem readValue_int (hrest : Ends rest) (depth : Nat) (i : Int) :
    readValue (fuel + 1) n (textAt l depth (int i) ++ rest) = met (int i, rest) (obstacle? n (int i)) := by
  have hobstacle : obstacle? n (int i) = if (Text.ofNat i.natAbs).length > digitLimit then
      some (.tooManyDigits (Text.ofNat i.natAbs).length) else none := by
    cases n <;> rfl
  rw [hobstacle, textAt, tokensAt, List.flatten_singleton, ofInt_eq_decimalText,
    readValue_decimalText (isWhole_ofNat _), ← ofInt_eq_decimalText, readNumber_ofInt i hrest]
  split <;> rfl

theorem readValue_real (hrest : Ends rest) (depth : Nat) (x : Binary64) :
    readValue (fuel + 1) n (textAt l depth (real x) ++ rest) = met (real x, rest) (obstacle? n (real x)) := by
  have hobstacle : obstacle? n (real x) = none := by cases n <;> rfl
  rw [hobstacle, textAt, tokensAt, List.flatten_singleton]
  cases x with
  | nan => rfl
  | infinite negative => cases negative <;> rfl
  | finite negative biased fraction =>
    obtain ⟨whole, decimals, power, hwhole, -, -, htext, -⟩ :=
      Binary64.exists_decimalText negative biased fraction
    rw [realText_finite, htext, readValue_decimalText hwhole, ← htext, readNumber_text hrest, met]

theorem readQuoted_between (t rest : Text) :
    readQuoted ((t.flatMap (escapedPoint false) ++ Text.doubleQuote :: rest).length + 1)
        ((t.flatMap (escapedPoint false) ++ Text.doubleQuote :: rest).length + 1)
        (t.flatMap (escapedPoint false) ++ Text.doubleQuote :: rest) = .ok (t, rest) := by
  refine readQuoted_escaped _ t rest ?_
  have := length_le_flatMap_escapedPoint t
  rw [List.length_append]
  omega

theorem readValue_text (hl : l.IsRead) (depth : Nat) (t : Text) :
    readValue (fuel + 1) n (textAt l depth (text t) ++ rest) = met (text t, rest) (obstacle? n (text t)) := by
  rw [obstacle?_text, textAt, tokensAt, List.flatten_singleton, hl.plain, escaped, List.cons_append, List.cons_append,
    List.append_assoc, List.singleton_append, readValue.eq_def]
  simp only
  rw [if_pos (by decide), readQuoted_between, met]

/-! ## Collections -/

/-- Values are read with twice as much fuel as they have code points, or their first obstacle is met. -/
def ReadsBack (l : Layout) (n : Nat) : Prop :=
  ∀ value, Distinct value → ∀ depth fuel rest, Ends rest → 2 * (textAt l depth value).length ≤ fuel →
    readValue fuel n (textAt l depth value ++ rest) = met (value, rest) (obstacle? n value)

/-- The items of an array are read one by one. -/
theorem readItems_itemsAt (hn : ReadsBack l n) (outer depth : Nat) (rest : Text) (item : Json)
    (items done : List Json) (hdistinct : ∀ i ∈ item :: items, Distinct i) (fuel : Nat)
    (hf : 2 * (textAt l depth item ++ itemsAt l depth items).length < fuel) :
    readItems fuel n done (textAt l depth item ++ (itemsAt l depth items ++
        (l.lineBreak outer ++ CodePoint.ofChar ']' :: rest))) =
      met (array (done.reverse ++ item :: items), rest) ((item :: items).findSome? (obstacle? n)) := by
  induction items generalizing item done fuel with
  | nil =>
    obtain ⟨fuel, rfl⟩ := Nat.exists_eq_succ_of_ne_zero (Nat.ne_of_gt (Nat.zero_lt_of_lt hf))
    rw [List.length_append] at hf
    have hends : Ends (itemsAt l depth [] ++ (l.lineBreak outer ++ CodePoint.ofChar ']' :: rest)) :=
      ends_lineBreak outer (ends_cons (by decide) rest)
    rw [readItems, hn item (hdistinct item List.mem_cons_self) depth fuel _ hends (by omega),
      List.findSome?_cons, List.findSome?_nil]
    cases obstacle? n item with
    | some obstacle => rfl
    | none =>
      simp only [met, itemsAt, itemTokens, List.flatten_nil, List.nil_append]
      rw [skipSpace_append (isSpace_lineBreak outer), skipSpace_cons _ (by decide)]
      simp
  | cons next items ih =>
    obtain ⟨fuel, rfl⟩ := Nat.exists_eq_succ_of_ne_zero (Nat.ne_of_gt (Nat.zero_lt_of_lt hf))
    rw [itemsAt_cons] at hf ⊢
    simp only [List.length_append, List.length_cons] at hf
    rw [List.cons_append, readItems, hn item (hdistinct item List.mem_cons_self) depth fuel _
      (ends_cons (by decide) _) (by omega), List.findSome?_cons]
    cases obstacle? n item with
    | some obstacle => rfl
    | none =>
      simp only [met, List.append_assoc]
      rw [skipSpace_cons _ (by decide)]
      simp only
      rw [if_neg (by decide), if_pos trivial, skipSpace_append (isSpace_lineBreak depth),
        skipSpace_textAt, ih next (item :: done) (fun i hi => hdistinct i (List.mem_cons_of_mem _ hi)) fuel
          (by rw [List.length_append]; omega)]
      simp [met]

/-- An array is read, at one depth more than its items. -/
theorem readValue_array (hn : ReadsBack l n) {items : List Json}
    (hdistinct : ∀ item ∈ items, Distinct item) (depth fuel : Nat) (rest : Text)
    (hf : 2 * (textAt l depth (array items)).length ≤ fuel) :
    readValue fuel (n + 1) (textAt l depth (array items) ++ rest) =
      met (array items, rest) (items.findSome? (obstacle? n)) := by
  cases items with
  | nil =>
    obtain ⟨fuel, rfl⟩ : ∃ f, fuel = f + 1 := ⟨fuel - 1, by
      have : (textAt l depth (array [])).length = 2 := rfl
      omega⟩
    rfl
  | cons item items =>
    rw [textAt_array_cons] at hf ⊢
    simp only [List.length_append, List.length_cons] at hf
    obtain ⟨fuel, rfl⟩ : ∃ f, fuel = f + 1 := ⟨fuel - 1, by omega⟩
    have hitems := readItems_itemsAt hn depth (depth + 1) rest item items [] hdistinct fuel
      (by rw [List.length_append]; omega)
    obtain ⟨c, more, hc, hb⟩ := textAt_begin l (depth + 1) item
    rw [readValue.eq_def]
    simp only [List.cons_append, List.append_assoc, List.nil_append]
    rw [if_neg (by decide), if_neg (by decide), if_pos (by trivial),
      skipSpace_append (isSpace_lineBreak (depth + 1)), skipSpace_textAt]
    -- the first item is no closing bracket, so the array is not taken for an empty one
    rw [hc, List.cons_append] at hitems ⊢
    simp only
    rw [if_neg hb.2.1]
    exact hitems

/-- What the reader does after a member, with all members until there. -/
def afterMember (fuel n : Nat) (members : Table Text Json) (rest : Text) : Except Stop (Json × Text) :=
  match skipSpace rest with
  | d :: more =>
    if d = '\x7d' then .ok (object members, more)
    else if d = ',' then readMembers fuel n members (skipSpace more)
    else .error (.flawed .expectingComma (more.length + 1))
  | [] => .error (.flawed .expectingComma 0)

/-- A member begins with the quote of its key, and no blank is before that. -/
theorem skipSpace_memberAt (depth : Nat) (member : Text × Json) (rest : Text) :
    skipSpace (memberAt l depth member ++ rest) = memberAt l depth member ++ rest :=
  skipSpace_cons _ (by decide)

theorem length_memberAt (depth : Nat) (member : Text × Json) :
    (textAt l depth member.2).length < (memberAt l depth member).length := by
  simp only [memberAt, escaped, List.cons_append, List.length_cons, List.length_append]
  omega

/-- A member is read: its key, the colon and the value, unless there is an obstacle in the value. -/
theorem readMembers_memberAt (hl : l.IsRead) (hn : ReadsBack l n) (depth : Nat) (member : Text × Json)
    (done : Table Text Json) (hrest : Ends rest) (hdistinct : Distinct member.2)
    (hf : 2 * (memberAt l depth member).length ≤ fuel) :
    readMembers (fuel + 1) n done (memberAt l depth member ++ rest) =
      match obstacle? n member.2 with
      | none => afterMember fuel n (Table.put member.1 member.2 done) rest
      | some obstacle => .error obstacle.stop := by
  obtain ⟨blanks, hcolon, hblanks⟩ := hl.afterKey
  have hvalue := hn member.2 hdistinct depth fuel rest hrest
    (by have := @length_memberAt l depth member; omega)
  rw [memberAt, hl.plain, hcolon, escaped, readMembers.eq_def]
  simp only [List.cons_append, List.append_assoc, List.nil_append]
  rw [if_neg (by decide), readQuoted_between]
  simp only
  rw [skipSpace_cons _ (by decide)]
  simp only
  rw [if_neg (by decide), skipSpace_append hblanks, skipSpace_textAt, hvalue]
  cases obstacle? n member.2 <;> rfl

theorem new_of_nodup {member : Text × Json} {members done : List (Text × Json)}
    (hkeys : (Table.keys (done ++ member :: members)).Nodup) : member.1 ∉ Table.keys done := by
  rw [Table.keys, List.map_append, List.nodup_append] at hkeys
  exact fun hmem => hkeys.2.2 _ hmem _ List.mem_cons_self rfl

/-- The members of an object are read one by one, each with a key that is new. -/
theorem readMembers_membersAt (hl : l.IsRead) (hn : ReadsBack l n) (outer depth : Nat) (rest : Text)
    (member : Text × Json) (members done : List (Text × Json))
    (hdistinct : ∀ m ∈ member :: members, Distinct m.2)
    (hkeys : (Table.keys (done ++ member :: members)).Nodup) (fuel : Nat)
    (hf : 2 * (memberAt l depth member ++ membersAt l depth members).length < fuel) :
    readMembers fuel n done (memberAt l depth member ++ (membersAt l depth members ++
        (l.lineBreak outer ++ CodePoint.ofChar '\x7d' :: rest))) =
      met (object (done ++ member :: members), rest)
        ((member :: members).findSome? fun m => obstacle? n m.2) := by
  induction members generalizing member done fuel with
  | nil =>
    obtain ⟨fuel, rfl⟩ : ∃ f, fuel = f + 1 := ⟨fuel - 1, by omega⟩
    rw [List.length_append] at hf
    have hnew := new_of_nodup hkeys
    have hends : Ends (membersAt l depth [] ++ (l.lineBreak outer ++ CodePoint.ofChar '\x7d' :: rest)) :=
      ends_lineBreak outer (ends_cons (by decide) rest)
    rw [readMembers_memberAt hl hn depth member done hends (hdistinct member List.mem_cons_self) (by omega),
      List.findSome?_cons, List.findSome?_nil]
    cases obstacle? n member.2 with
    | some obstacle => rfl
    | none =>
      simp only [afterMember, membersAt, memberTokens, List.flatten_nil, List.nil_append]
      rw [skipSpace_append (isSpace_lineBreak outer), skipSpace_cons _ (by decide)]
      simp only
      rw [if_pos trivial, Table.put_of_not_mem_keys hnew]
      rfl
  | cons next members ih =>
    obtain ⟨fuel, rfl⟩ : ∃ f, fuel = f + 1 := ⟨fuel - 1, by omega⟩
    rw [membersAt_cons] at hf ⊢
    simp only [List.length_append, List.length_cons] at hf
    have hnew := new_of_nodup hkeys
    rw [List.cons_append, readMembers_memberAt hl hn depth member done (ends_cons (by decide) _)
      (hdistinct member List.mem_cons_self) (by omega), List.findSome?_cons]
    cases obstacle? n member.2 with
    | some obstacle => rfl
    | none =>
      simp only [afterMember, List.append_assoc]
      rw [skipSpace_cons _ (by decide)]
      simp only
      rw [if_neg (by decide), if_pos trivial, skipSpace_append (isSpace_lineBreak depth), skipSpace_memberAt,
        Table.put_of_not_mem_keys hnew,
        ih next (done ++ [member]) (fun m hm => hdistinct m (List.mem_cons_of_mem _ hm))
          (by rwa [List.append_assoc, List.singleton_append]) fuel (by rw [List.length_append]; omega)]
      rw [List.append_assoc, List.singleton_append]

/-- An object is read, at one depth more than its members. -/
theorem readValue_object (hl : l.IsRead) (hn : ReadsBack l n) {members : List (Text × Json)}
    (hkeys : (Table.keys members).Nodup) (hdistinct : ∀ member ∈ members, Distinct member.2)
    (depth fuel : Nat) (rest : Text) (hf : 2 * (textAt l depth (object members)).length ≤ fuel) :
    readValue fuel (n + 1) (textAt l depth (object members) ++ rest) =
      met (object members, rest) (members.findSome? fun m => obstacle? n m.2) := by
  cases members with
  | nil =>
    obtain ⟨fuel, rfl⟩ : ∃ f, fuel = f + 1 := ⟨fuel - 1, by
      have : (textAt l depth (object [])).length = 2 := rfl
      omega⟩
    rfl
  | cons member members =>
    rw [textAt_object_cons] at hf ⊢
    simp only [List.length_append, List.length_cons] at hf
    obtain ⟨fuel, rfl⟩ : ∃ f, fuel = f + 1 := ⟨fuel - 1, by omega⟩
    have hmembers := readMembers_membersAt hl hn depth (depth + 1) rest member members [] hdistinct
      hkeys fuel (by rw [List.length_append]; omega)
    rw [readValue.eq_def]
    simp only [List.cons_append, List.append_assoc, List.nil_append]
    rw [if_neg (by decide), if_pos (by trivial), skipSpace_append (isSpace_lineBreak (depth + 1)),
      skipSpace_memberAt]
    exact hmembers

/-- **A value in front of a text is read as it was written**, and leaves the text, or the first obstacle
in it is met. -/
theorem readsBack (hl : l.IsRead) (n : Nat) : ReadsBack l n := by
  -- on the depth: the values inside a value are of the depth below
  induction n using Nat.strongRecOn with
  | ind n ih =>
    intro value hdistinct depth fuel rest hrest hf
    obtain ⟨c, more, hc, -⟩ := textAt_begin l depth value
    obtain ⟨fuel, rfl⟩ : ∃ f, fuel = f + 1 := ⟨fuel - 1, by
      rw [hc, List.length_cons] at hf
      omega⟩
    cases hdistinct with
    | null => cases n <;> rfl
    | bool b => cases n <;> cases b <;> rfl
    | int i => exact readValue_int hrest depth i
    | real x => exact readValue_real hrest depth x
    | text t => exact readValue_text hl depth t
    | @array items h =>
      cases n with
      | zero =>
        cases items with
        | nil => rfl
        | cons item items => rw [textAt_array_cons]; rfl
      | succ n => exact readValue_array (ih n (Nat.lt_succ_self n)) h depth (fuel + 1) rest hf
    | @object members hkeys h =>
      cases n with
      | zero =>
        cases members with
        | nil => rfl
        | cons member members => rw [textAt_object_cons]; rfl
      | succ n => exact readValue_object hl (ih n (Nat.lt_succ_self n)) hkeys h depth (fuel + 1) rest hf

/-- **A document is read as it was written**, or its first obstacle is met. -/
theorem parse_write (hl : l.IsRead) {value : Json} (hdistinct : Distinct value) :
    parse (write l value) =
      match obstacle? depthLimit value with
      | none => .ok value
      | some obstacle => .error obstacle.problem := by
  have hread := readsBack hl depthLimit value hdistinct 0 (2 * (textAt l 0 value).length + 2) []
    nofun (by omega)
  have htext : write l value = textAt l 0 value := rfl
  obtain ⟨c, more, hc, hb⟩ := textAt_begin l 0 value
  have hmark : (textAt l 0 value).head?.any (·.val == 0xFEFF) = false := by
    rw [hc, List.head?_cons, Option.any_some, hb.2.2]
  have hskip := skipSpace_textAt l 0 value []
  rw [List.append_nil] at hread hskip
  unfold parse
  rw [htext, hmark, hskip, hread]
  cases obstacle? depthLimit value with
  | none => rfl
  | some obstacle => cases obstacle <;> rfl

/-! ## Line ends -/

/-- The carriage return. -/
def carriageReturn : CodePoint := CodePoint.ofChar '\r'

theorem not_mem_of_isDigits {t : Text} (h : IsDigits t) : carriageReturn ∉ t := fun hc => by
  cases h carriageReturn hc

theorem not_mem_decimalText {negative : Bool} {whole decimals : Text} {power : Option (Bool × Nat)}
    (hwhole : IsWhole whole) (hdecimals : IsDigits decimals) :
    carriageReturn ∉ decimalText negative whole decimals power := by
  have hsign : carriageReturn ∉ Text.ofString (if negative then "-" else "") := by cases negative <;> decide
  have hpoint : carriageReturn ∉ pointText decimals := by
    unfold pointText
    split
    · exact List.not_mem_nil
    · exact List.not_mem_cons_of_ne_of_not_mem (by decide) (not_mem_of_isDigits hdecimals)
  have hpower : carriageReturn ∉ powerText power := by
    cases power with
    | none => exact List.not_mem_nil
    | some power =>
      have hminus : carriageReturn ≠ CodePoint.ofChar (if power.1 then '-' else '+') := by
        cases power.1 <;> decide
      have hdigits : IsDigits (Text.padded 2 power.2) := fun _ hc => Text.isAsciiDigit_of_mem_padded hc
      exact List.not_mem_cons_of_ne_of_not_mem (by decide)
        (List.not_mem_cons_of_ne_of_not_mem hminus (not_mem_of_isDigits hdigits))
  simp only [decimalText, List.mem_append, not_or]
  exact ⟨hsign, not_mem_of_isDigits hwhole.isDigits, hpoint, hpower⟩

theorem not_mem_realText (x : Binary64) : carriageReturn ∉ realText x := by
  cases x with
  | nan => decide
  | infinite negative => cases negative <;> decide
  | finite negative biased fraction =>
    obtain ⟨whole, decimals, power, hwhole, hdecimals, -, htext, -⟩ :=
      Binary64.exists_decimalText negative biased fraction
    rw [realText_finite, htext]
    exact not_mem_decimalText hwhole hdecimals

theorem not_mem_escaped (t : Text) : carriageReturn ∉ escaped false t := by
  simp only [escaped, List.cons_append, List.mem_cons, List.mem_append, List.mem_flatMap, List.not_mem_nil,
    or_false, not_or, not_exists, not_and]
  exact ⟨by decide, fun c _ => not_mem_escapedPoint c, by decide⟩

theorem not_mem_lineBreak (depth : Nat) : carriageReturn ∉ l.lineBreak depth := by
  unfold Layout.lineBreak
  split
  · exact List.not_mem_nil
  · simp only [List.mem_cons, List.mem_replicate, not_or, not_and]
    exact ⟨by decide, fun _ => by decide⟩

section
variable (hplain : l.asciiOnly = false) (hkey : carriageReturn ∉ l.afterKey)

theorem not_mem_itemsAt {depth : Nat} {items : List Json}
    (h : ∀ item ∈ items, carriageReturn ∉ textAt l depth item) : carriageReturn ∉ itemsAt l depth items := by
  induction items with
  | nil => exact List.not_mem_nil
  | cons item items ih =>
    simp only [itemsAt_cons, List.mem_cons, List.mem_append, not_or]
    exact ⟨by decide, not_mem_lineBreak depth, h item List.mem_cons_self,
      ih fun i hi => h i (List.mem_cons_of_mem _ hi)⟩

include hplain hkey

theorem not_mem_memberAt {depth : Nat} {member : Text × Json}
    (h : carriageReturn ∉ textAt l depth member.2) : carriageReturn ∉ memberAt l depth member := by
  simp only [memberAt, hplain, List.mem_append, not_or]
  exact ⟨not_mem_escaped member.1, hkey, h⟩

theorem not_mem_membersAt {depth : Nat} {members : List (Text × Json)}
    (h : ∀ member ∈ members, carriageReturn ∉ textAt l depth member.2) :
    carriageReturn ∉ membersAt l depth members := by
  induction members with
  | nil => exact List.not_mem_nil
  | cons member members ih =>
    simp only [membersAt_cons, List.mem_cons, List.mem_append, not_or]
    exact ⟨by decide, not_mem_lineBreak depth, not_mem_memberAt hplain hkey (h member List.mem_cons_self),
      ih fun m hm => h m (List.mem_cons_of_mem _ hm)⟩

/-- A written value holds no carriage return: those of its texts are escaped. -/
theorem not_mem_textAt {value : Json} (h : Distinct value) (depth : Nat) :
    carriageReturn ∉ textAt l depth value := by
  induction h generalizing depth with
  | null => exact (by decide : carriageReturn ∉ Text.ofString "null")
  | bool b =>
    cases b with
    | true => exact (by decide : carriageReturn ∉ Text.ofString "true")
    | false => exact (by decide : carriageReturn ∉ Text.ofString "false")
  | int i =>
    rw [textAt, tokensAt, List.flatten_singleton, ofInt_eq_decimalText]
    exact not_mem_decimalText (isWhole_ofNat _) (List.forall_mem_nil _)
  | real x =>
    rw [textAt, tokensAt, List.flatten_singleton]
    exact not_mem_realText x
  | text t =>
    rw [textAt, tokensAt, List.flatten_singleton, hplain]
    exact not_mem_escaped t
  | @array items _ ih =>
    cases items with
    | nil => exact (by decide : carriageReturn ∉ Text.ofString "[]")
    | cons item items =>
      simp only [textAt_array_cons, List.mem_cons, List.mem_append, List.not_mem_nil, or_false, not_or]
      exact ⟨by decide, not_mem_lineBreak _, ih item List.mem_cons_self _,
        not_mem_itemsAt fun i hi => ih i (List.mem_cons_of_mem _ hi) _, not_mem_lineBreak _, by decide⟩
  | @object members _ _ ih =>
    cases members with
    | nil => exact (by decide : carriageReturn ∉ Text.ofString "\x7b\x7d")
    | cons member members =>
      simp only [textAt_object_cons, List.mem_cons, List.mem_append, List.not_mem_nil, or_false, not_or]
      exact ⟨by decide, not_mem_lineBreak _, not_mem_memberAt hplain hkey (ih member List.mem_cons_self _),
        not_mem_membersAt hplain hkey fun m hm => ih m (List.mem_cons_of_mem _ hm) _,
        not_mem_lineBreak _, by decide⟩

end

/-! ## Files -/

/-- **A document in a file is read as it was written**, if there is no obstacle in it. -/
theorem parse_indented {value : Json} (hdistinct : Distinct value)
    (hclear : obstacle? depthLimit value = none) : parse (indented value) = .ok value := by
  have hread := parse_write isRead_fileLayout hdistinct
  rwa [hclear] at hread

theorem not_mem_indented {value : Json} (hdistinct : Distinct value) :
    carriageReturn ∉ indented value :=
  not_mem_textAt rfl (by decide) hdistinct 0

end VaultConsole.Json
