import VaultConsole.Proofs.Text.Digits
import VaultConsole.Proofs.Text.Utf8
import VaultConsole.Time.Iso

/-!
# Timestamps are read as they were written

The written form of a timestamp is ASCII of one layout: a hyphened date, a `T`, a time of day
with colons, and a signed distance. The reader finds the date's end by the hyphen, the time's end
by the sign, and each number by its width, so it has every part of every timestamp again, also
the microseconds of a distance.

* `Timestamp.parse_isoText`: **the timestamp of a timestamp's written form is that timestamp.**
-/

namespace VaultConsole.Timestamp

/-- The bytes of a number that is written to a width. -/
def octetsOf (width n : Nat) : Octets := (Text.padded width n).map (·.val)

theorem length_octetsOf {width n : Nat} (hw : 0 < width) (h : n < 10 ^ width) :
    (octetsOf width n).length = width := by
  rw [octetsOf, List.length_map, Text.length_padded hw h]

theorem isDigit_of_mem_octetsOf {width n b : Nat} (h : b ∈ octetsOf width n) :
    isDigit b = true := by
  obtain ⟨c, hc, rfl⟩ := List.mem_map.1 h
  exact Text.isAsciiDigit_of_mem_padded hc

theorem foldl_octetsOf (width n : Nat) :
    (octetsOf width n).foldl (fun v d => v * 10 + (d - 48)) 0 = n := by
  rw [octetsOf, List.foldl_map]
  exact Text.foldl_padded width n

/-- A number is read from its digits, whatever follows them. -/
theorem digits?_octetsOf {width n : Nat} (hw : 0 < width) (h : n < 10 ^ width) (rest : Octets) :
    digits? width (octetsOf width n ++ rest) = some (n, rest) := by
  have hl := length_octetsOf hw h
  have htake : (octetsOf width n ++ rest).take width = octetsOf width n := List.take_left' hl
  have hdrop : (octetsOf width n ++ rest).drop width = rest := List.drop_left' hl
  unfold digits?
  rw [htake, hdrop]
  simp only
  rw [if_pos ⟨hl, List.all_eq_true.2 fun b hb => isDigit_of_mem_octetsOf hb⟩, foldl_octetsOf]

/-- The digits of a number have a first one. -/
theorem octetsOf_eq_cons {width n : Nat} (hw : 0 < width) (h : n < 10 ^ width) :
    ∃ b more, octetsOf width n = b :: more ∧ isDigit b = true := by
  cases hd : octetsOf width n with
  | nil =>
    have := length_octetsOf hw h
    rw [hd, List.length_nil] at this
    omega
  | cons b more => exact ⟨b, more, rfl, isDigit_of_mem_octetsOf (by rw [hd]; simp)⟩

theorem isDigit_iff (b : Nat) : isDigit b = true ↔ 48 ≤ b ∧ b ≤ 57 := by
  simp [isDigit]

/-! ## The time of day -/

/-- The bytes of the hour and the minute. -/
def minuteOctets (hour minute : Nat) : Octets := octetsOf 2 hour ++ colon :: octetsOf 2 minute

/-- The bytes of the second and, unless it is whole, its fraction. -/
def secondOctets (second micro : Nat) : Octets :=
  colon :: octetsOf 2 second ++ if micro = 0 then [] else point :: octetsOf 6 micro

section
variable (following : Nat) (done : Bool → Option RawTime) (fraction next : Octets → Option RawTime)

theorem afterPart_nil : afterPart true following [] done fraction next = done (following ≠ 0) :=
  rfl

/-- After a colon, the next part is read. -/
theorem afterPart_colon {width n : Nat} (hw : 0 < width) (h : n < 10 ^ width) (rest : Octets) :
    afterPart true following (colon :: octetsOf width n ++ rest) done fraction next =
      next (octetsOf width n ++ rest) := by
  obtain ⟨b, more, hb, -⟩ := octetsOf_eq_cons hw h
  unfold afterPart
  rw [hb]
  simp

/-- After a point, the fraction is read. -/
theorem afterPart_point {width n : Nat} (hw : 0 < width) (h : n < 10 ^ width) :
    afterPart true following (point :: octetsOf width n) done fraction next =
      fraction (octetsOf width n) := by
  obtain ⟨b, more, hb, -⟩ := octetsOf_eq_cons hw h
  unfold afterPart
  rw [hb]
  simp [point, colon]

end

section
variable {hour minute second micro : Nat}

/-- Six digits after the point are the microseconds. -/
theorem fraction?_octetsOf (hms : Nat × Nat × Nat) (following : Nat) (h : micro < 1000000) :
    fraction? hms following (octetsOf 6 micro) =
      some ⟨hms.1, hms.2.1, hms.2.2, micro, following ≠ 0⟩ := by
  have hl : (octetsOf 6 micro).length = 6 := length_octetsOf (by decide) h
  have hr : digits? 6 (octetsOf 6 micro) = some (micro, []) := by
    have := digits?_octetsOf (show 0 < 6 by decide) h []
    rwa [List.append_nil] at this
  unfold fraction?
  simp only [hl, hr, Nat.min_self, Option.bind_eq_bind, Option.bind_some, Nat.sub_self]
  simp

/-- After the hour and the minute, what follows decides. -/
theorem time?_minute (following : Nat) (rest : Octets) (hh : hour < 100) (hm : minute < 100) :
    time? following (minuteOctets hour minute ++ rest) =
      afterPart true following rest (fun more => some ⟨hour, minute, 0, 0, more⟩)
        (fraction? (hour, minute, 0) following) (fun s => do
          let (second, s) ← digits? 2 s
          afterPart true following s (fun more => some ⟨hour, minute, second, 0, more⟩)
            (fraction? (hour, minute, second) following)
            (fraction? (hour, minute, second) following)) := by
  unfold time? minuteOctets
  rw [List.append_assoc, digits?_octetsOf (by decide) hh]
  simp only [List.cons_append, Option.bind_eq_bind, Option.bind_some, List.headD_cons,
    decide_true]
  rw [← List.cons_append, afterPart_colon _ _ _ _ (by decide) hm,
    digits?_octetsOf (by decide) hm]
  rfl

/-- A time to the minute. -/
theorem time?_minuteOctets (following : Nat) (hh : hour < 100) (hm : minute < 100) :
    time? following (minuteOctets hour minute) =
      some ⟨hour, minute, 0, 0, following ≠ 0⟩ := by
  have h := time?_minute following [] hh hm
  rwa [List.append_nil, afterPart_nil] at h

/-- A time to the second, with or without a fraction. -/
theorem time?_secondOctets (following : Nat) (hh : hour < 100) (hm : minute < 100)
    (hs : second < 100) (hu : micro < 1000000) :
    time? following (minuteOctets hour minute ++ secondOctets second micro) =
      some ⟨hour, minute, second, micro, following ≠ 0⟩ := by
  rw [time?_minute following _ hh hm, secondOctets, afterPart_colon _ _ _ _ (by decide) hs,
    digits?_octetsOf (by decide) hs]
  simp only [Option.bind_eq_bind, Option.bind_some]
  by_cases hz : micro = 0
  · rw [if_pos hz, afterPart_nil, hz]
  · rw [if_neg hz, afterPart_point _ _ _ _ (by decide) hu, fraction?_octetsOf _ _ hu]

end

/-! ## The distance from the universal clock -/

/-- Whether a byte begins the distance of a clock. -/
def startsZone (b : Nat) : Bool := b == plus || b == hyphen || b == letterZ

theorem startsZone_of_isDigit {b : Nat} (h : isDigit b = true) : startsZone b = false := by
  rw [isDigit_iff] at h
  simp only [startsZone, plus, hyphen, letterZ, Bool.or_eq_false_iff, beq_eq_false_iff_ne]
  omega

theorem startsZone_of_mem_octetsOf {width n b : Nat} (h : b ∈ octetsOf width n) :
    startsZone b = false :=
  startsZone_of_isDigit (isDigit_of_mem_octetsOf h)

/-- A time of day does not look like the beginning of a distance anywhere. -/
theorem startsZone_time {hour minute second micro b : Nat}
    (h : b ∈ minuteOctets hour minute ++ secondOctets second micro) : startsZone b = false := by
  simp only [minuteOctets, secondOctets, List.mem_append, List.mem_cons] at h
  rcases h with (h | rfl | h) | (rfl | h) | h
  · exact startsZone_of_mem_octetsOf h
  · rfl
  · exact startsZone_of_mem_octetsOf h
  · rfl
  · exact startsZone_of_mem_octetsOf h
  · by_cases hz : micro = 0
    · rw [if_pos hz] at h
      exact absurd h List.not_mem_nil
    · rw [if_neg hz, List.mem_cons] at h
      rcases h with rfl | h
      · rfl
      · exact startsZone_of_mem_octetsOf h

/-- The bytes of a distance of so many microseconds. -/
def distanceOctets (n : Nat) : Octets :=
  let seconds := n / 1000000
  minuteOctets (seconds / 3600) (seconds / 60 % 60) ++
    if seconds % 60 = 0 ∧ n % 1000000 = 0 then []
    else secondOctets (seconds % 60) (n % 1000000)

/-- A distance is read part by part. -/
theorem time?_distanceOctets {n : Nat} (h : n < dayLength) :
    time? 0 (distanceOctets n) =
      some ⟨n / 1000000 / 3600, n / 1000000 / 60 % 60, n / 1000000 % 60, n % 1000000, false⟩ := by
  unfold dayLength at h
  unfold distanceOctets
  by_cases hz : n / 1000000 % 60 = 0 ∧ n % 1000000 = 0
  · simp only [if_pos hz]
    rw [List.append_nil, time?_minuteOctets 0 (by omega) (by omega), hz.1, hz.2]
    rfl
  · simp only [if_neg hz]
    rw [time?_secondOctets 0 (by omega) (by omega) (by omega) (by omega)]
    rfl

/-- The byte of the sign of a distance. -/
def signOctet (offset : Int) : Nat := if offset < 0 then hyphen else plus

/-- A time of day with a distance is read as both. -/
theorem zonedTime?_signed {hour minute second micro : Nat} {offset : Int} (hh : hour < 100)
    (hm : minute < 100) (hs : second < 100) (hu : micro < 1000000)
    (hd : offset.natAbs < dayLength) (hz : offset = 0 ∨ 1000000 ≤ offset.natAbs) :
    zonedTime? (minuteOctets hour minute ++ secondOctets second micro ++
        signOctet offset :: distanceOctets offset.natAbs) =
      some (⟨hour, minute, second, micro, true⟩, offset) := by
  have hsign : startsZone (signOctet offset) = true := by
    unfold signOctet
    by_cases hneg : offset < 0
    · rw [if_pos hneg]; rfl
    · rw [if_neg hneg]; rfl
  -- the sign is the first byte that can begin a distance
  have hlocal : (minuteOctets hour minute ++ secondOctets second micro ++
      signOctet offset :: distanceOctets offset.natAbs).takeWhile
        (fun b => !(b == plus || b == hyphen || b == letterZ)) =
      minuteOctets hour minute ++ secondOctets second micro := by
    show List.takeWhile (fun b => !startsZone b) _ = _
    rw [List.takeWhile_append_of_pos fun b hb => by rw [startsZone_time hb]; rfl,
      List.takeWhile_cons_of_neg (by rw [hsign]; decide), List.append_nil]
  have hne : signOctet offset ≠ 0 := by
    intro h0
    rw [h0] at hsign
    exact absurd hsign (by decide)
  have hnz : signOctet offset ≠ letterZ := by
    unfold signOctet
    by_cases hneg : offset < 0
    · rw [if_pos hneg]; decide
    · rw [if_neg hneg]; decide
  unfold zonedTime?
  simp only [hlocal, List.drop_left, front, List.headD_cons]
  rw [time?_secondOctets _ hh hm hs hu]
  simp only [Option.bind_eq_bind, Option.bind_some, if_neg hnz, time?_distanceOctets hd,
    Bool.false_eq_true, if_false, ne_eq, hne, not_false_eq_true, decide_true]
  rw [Option.some_inj, Prod.mk.injEq]
  -- the sign and the four parts make up the distance again
  refine ⟨rfl, ?_⟩
  unfold signOctet
  unfold dayLength at hd
  by_cases hneg : offset < 0
  · rw [if_pos hneg, if_pos rfl]
    split <;> omega
  · rw [if_neg hneg, if_neg (by decide)]
    split <;> omega

/-! ## The whole timestamp -/

/-- The bytes of a date. -/
def dateOctets (year month day : Nat) : Octets :=
  octetsOf 4 year ++ hyphen :: (octetsOf 2 month ++ hyphen :: octetsOf 2 day)

theorem length_dateOctets {year month day : Nat} (hy : year < 10000) (hm : month < 100)
    (hd : day < 100) : (dateOctets year month day).length = 10 := by
  simp [dateOctets, length_octetsOf (show 0 < 4 by decide) hy,
    length_octetsOf (show 0 < 2 by decide) hm, length_octetsOf (show 0 < 2 by decide) hd]

/-- A hyphen after the year, and no week after that: the date takes ten bytes. -/
theorem dateEnd_dateOctets {year month day : Nat} (rest : Octets) (hy : year < 10000)
    (hm : month < 100) (hd : day < 100) : dateEnd (dateOctets year month day ++ rest) = 10 := by
  have hlen := length_dateOctets hy hm hd
  have hly := length_octetsOf (show 0 < 4 by decide) hy
  have h4 : (dateOctets year month day ++ rest).getD 4 0 = hyphen := by
    simp [dateOctets, List.getD, hly]
  have h5 : (dateOctets year month day ++ rest).getD 5 0 ≠ letterW := by
    obtain ⟨b, more, hb, hdigit⟩ := octetsOf_eq_cons (show 0 < 2 by decide) hm
    have : (dateOctets year month day ++ rest).getD 5 0 = b := by
      simp [dateOctets, List.getD, List.getElem?_append, hly, hb]
    rw [this]
    rw [isDigit_iff] at hdigit
    unfold letterW
    omega
  unfold dateEnd
  simp only [h4, if_neg h5, if_true]
  rw [if_neg (by rw [List.length_append]; omega)]

/-- A date is read part by part. -/
theorem date?_dateOctets {year month day : Nat} (rest : Octets) (ends : Nat) (hy : year < 10000)
    (hm : month < 100) (hd : day < 100) :
    date? (dateOctets year month day ++ rest) ends = some ⟨year, month, day⟩ := by
  obtain ⟨b, more, hb, hdigit⟩ := octetsOf_eq_cons (show 0 < 2 by decide) hm
  have hW : b ≠ letterW := by
    rw [isDigit_iff] at hdigit
    unfold letterW
    omega
  have hmonth := digits?_octetsOf (show 0 < 2 by decide) hm (hyphen :: octetsOf 2 day ++ rest)
  rw [hb] at hmonth
  unfold date? dateOctets
  rw [List.append_assoc, digits?_octetsOf (by decide) hy, hb]
  simp only [Option.bind_eq_bind, Option.bind_some, List.cons_append, List.append_assoc, front,
    List.headD_cons, if_true, List.drop_succ_cons, List.drop_zero, if_neg hW] at hmonth ⊢
  rw [hmonth]
  simp only [Option.bind_some, List.headD_cons, ne_eq, not_true_eq_false, and_false, if_false,
    List.drop_succ_cons, List.drop_zero, digits?_octetsOf (show 0 < 2 by decide) hd]
  rfl

/-- The bytes of the written form of a timestamp. -/
def isoOctets (t : Timestamp) : Octets :=
  dateOctets t.year t.month t.day ++ (CodePoint.ofChar 'T').val ::
    (minuteOctets t.hour t.minute ++ secondOctets t.second t.micro ++
      signOctet t.offset :: distanceOctets t.offset.natAbs)

theorem map_offsetText (offset : Int) :
    (offsetText offset).map (·.val) = signOctet offset :: distanceOctets offset.natAbs := by
  unfold offsetText distanceOctets signOctet
  by_cases hu : offset.natAbs % 1000000 = 0
  · by_cases hs : offset.natAbs / 1000000 % 60 = 0
    · split <;> simp [hu, hs, minuteOctets, octetsOf] <;> rfl
    · split <;> simp [hu, hs, minuteOctets, secondOctets, octetsOf] <;> rfl
  · split <;> simp [hu, minuteOctets, secondOctets, octetsOf] <;> rfl

theorem map_isoText (t : Timestamp) : t.isoText.map (·.val) = t.isoOctets := by
  unfold isoText isoLocalText isoOctets
  rw [List.map_append, map_offsetText]
  by_cases hu : t.micro = 0
  · simp [hu, dateOctets, minuteOctets, secondOctets, octetsOf]
    rfl
  · simp [hu, dateOctets, minuteOctets, secondOctets, octetsOf]
    rfl

theorem lt_of_mem_octetsOf {width n b : Nat} (h : b ∈ octetsOf width n) : b < 0x80 := by
  have := isDigit_of_mem_octetsOf h
  rw [isDigit_iff] at this
  omega

theorem lt_of_mem_minuteOctets {hour minute b : Nat} (h : b ∈ minuteOctets hour minute) :
    b < 0x80 := by
  simp only [minuteOctets, List.mem_append, List.mem_cons] at h
  rcases h with h | rfl | h
  · exact lt_of_mem_octetsOf h
  · decide
  · exact lt_of_mem_octetsOf h

theorem lt_of_mem_secondOctets {second micro b : Nat} (h : b ∈ secondOctets second micro) :
    b < 0x80 := by
  simp only [secondOctets, List.cons_append, List.mem_append, List.mem_cons] at h
  rcases h with rfl | h | h
  · decide
  · exact lt_of_mem_octetsOf h
  · split at h
    · exact absurd h List.not_mem_nil
    · rw [List.mem_cons] at h
      rcases h with rfl | h
      · decide
      · exact lt_of_mem_octetsOf h

theorem lt_of_mem_distanceOctets {n b : Nat} (h : b ∈ distanceOctets n) : b < 0x80 := by
  simp only [distanceOctets, List.mem_append] at h
  rcases h with h | h
  · exact lt_of_mem_minuteOctets h
  · split at h
    · exact absurd h List.not_mem_nil
    · exact lt_of_mem_secondOctets h

theorem lt_of_mem_isoOctets {t : Timestamp} {b : Nat} (h : b ∈ t.isoOctets) : b < 0x80 := by
  simp only [isoOctets, dateOctets, List.mem_append, List.mem_cons] at h
  rcases h with (h | rfl | h | rfl | h) | rfl | (h | h) | rfl | h
  · exact lt_of_mem_octetsOf h
  · decide
  · exact lt_of_mem_octetsOf h
  · decide
  · exact lt_of_mem_octetsOf h
  · decide
  · exact lt_of_mem_minuteOctets h
  · exact lt_of_mem_secondOctets h
  · unfold signOctet
    split <;> decide
  · exact lt_of_mem_distanceOctets h

/-- The written form of a timestamp is ASCII. -/
theorem lt_of_mem_isoText {t : Timestamp} {c : CodePoint} (h : c ∈ t.isoText) : c.val < 0x80 :=
  lt_of_mem_isoOctets (map_isoText t ▸ List.mem_map_of_mem h)

/-- The bytes of an ASCII text are its code points. -/
theorem octets?_ascii {t : Text} (h : ∀ c ∈ t, c.val < 0x80) :
    octets? t = some (t.map (·.val)) := by
  have hnone : ([7, 8, 10].find? fun i => (t[i]?).any CodePoint.isSurrogate) = none := by
    rw [List.find?_eq_none]
    intro i _
    cases hi : t[i]? with
    | none => simp
    | some c =>
      have := h c (List.mem_of_getElem? hi)
      simp only [Option.any_some, CodePoint.isSurrogate, Bool.and_eq_true, decide_eq_true_eq]
      omega
  unfold octets?
  simp only [hnone, Text.Utf8.encode_ascii h, List.map_map, Option.some_inj]
  refine List.map_congr_left fun c hc => ?_
  have := h c hc
  exact Text.Utf8.toNat_toUInt8 (by omega)

/-- The parts of a written timestamp are those of the timestamp. -/
theorem parts?_isoText (t : Timestamp) :
    parts? t.isoText =
      some (⟨t.year, t.month, t.day⟩, ⟨t.hour, t.minute, t.second, t.micro, true⟩, t.offset) := by
  obtain ⟨-, hy, -, hm, -, hd, hh, hmin, hs, hu, ho, hz⟩ := t.valid
  -- two digits hold the day of any month
  have hday : t.day < 100 := by
    have : Calendar.daysInMonth t.year t.month ≤ 31 := by
      unfold Calendar.daysInMonth
      split
      · split <;> omega
      · split <;> omega
    omega
  have hlen := length_dateOctets (show t.year < 10000 by omega) (show t.month < 100 by omega) hday
  have hzoned := zonedTime?_signed (show t.hour < 100 by omega) (show t.minute < 100 by omega)
    (show t.second < 100 by omega) hu ho hz
  unfold parts?
  rw [octets?_ascii fun c hc => lt_of_mem_isoText hc, map_isoText]
  simp only [Option.bind_eq_bind, Option.bind_some]
  unfold isoOctets
  rw [dateEnd_dateOctets _ (by omega) (by omega) hday, date?_dateOctets _ _ (by omega) (by omega) hday]
  simp only [Option.bind_some]
  rw [if_neg (by simp only [List.length_append, List.length_cons]; omega), List.drop_left' hlen]
  have hone : characterLength ((CodePoint.ofChar 'T').val ::
      (minuteOctets t.hour t.minute ++ secondOctets t.second t.micro ++
        signOctet t.offset :: distanceOctets t.offset.natAbs)) = 1 := rfl
  rw [hone, List.drop_succ_cons, List.drop_zero, hzoned]
  rfl

/-- **A timestamp is read as it was written**, whatever its distance from the universal clock. -/
theorem parse_isoText (t : Timestamp) : parse t.isoText = .ok t := by
  unfold parse
  rw [parts?_isoText]
  exact dif_pos t.valid

end VaultConsole.Timestamp
