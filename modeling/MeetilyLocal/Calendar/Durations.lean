import MeetilyLocal.Calendar.Reminders

/-!
# Durations of events

The embedding of `parse_iso_duration` and of the end of an event in `parse_event` (`calendar/parser.rs`). A
duration is read in one pass: digits are collected, and a letter makes seconds of them, which are added up.

What a text says is right whenever the code returns it (`Durations.eq_of_denotes`). But the numbers are
those of the feed, and `chrono` panics where a duration or an instant gets too large, instead of an event
that is left out (`not_handled_weeks`). `reached` is what the text adds up to, as far as it is read, in
numbers without a limit; `handled_iff` is how large it may be.
-/

namespace MeetilyLocal

namespace Durations

/-! ## The code -/

/-- `TimeDelta::MAX`, in whole seconds -/
def maxSeconds : ℕ := 9223372036854775

/-- A `TimeDelta` of whole seconds. -/
structure TimeDelta : Type where
  /-- how many -/
  seconds : ℤ
  /-- they are in range -/
  inRange : seconds.natAbs ≤ maxSeconds
  deriving DecidableEq

/-- So many seconds; none where that panics. -/
def TimeDelta.ofSeconds (seconds : ℤ) : Option TimeDelta :=
  if h : seconds.natAbs ≤ maxSeconds then some ⟨seconds, h⟩ else none

/-- `TimeDelta::zero` -/
def TimeDelta.zero : TimeDelta := ⟨0, by decide⟩

/-- A `DateTime<Utc>`, in nanoseconds. -/
structure Instant : Type where
  /-- since the epoch -/
  time : ℤ
  /-- it is in range -/
  inRange : minUtc ≤ time ∧ time ≤ maxUtc
  deriving DecidableEq

/-- A time later; none where that panics. -/
def Instant.add (t : Instant) (d : TimeDelta) : Option Instant :=
  if h : minUtc ≤ t.time + d.seconds * 1000000000 ∧ t.time + d.seconds * 1000000000 ≤ maxUtc then
    some ⟨t.time + d.seconds * 1000000000, h⟩
  else none

/-- `str::parse::<i64>` of digits -/
def parseI64 (digits : List Char) : Option ℕ :=
  if digits ≠ [] ∧ Nat.ofDigitChars 10 digits 0 < 2 ^ 63 then some (Nat.ofDigitChars 10 digits 0)
  else none

/-- The seconds of a unit, before or behind the `T`. -/
def unitSeconds : Char → Bool → Option ℕ
  | 'W', false => some 604800
  | 'D', false => some 86400
  | 'H', true => some 3600
  | 'M', true => some 60
  | 'S', true => some 1
  | _, _ => none

/-- The loop over the characters. None inside where it rejects them, none outside where it panics. -/
def parseFrom (total : TimeDelta) (buf : List Char) (inTime : Bool) :
    List Char → Option (Option TimeDelta)
  | [] => some (some total)
  | ch :: rest =>
    if ch = 'T' then parseFrom total buf true rest
    else if ch.isDigit then parseFrom total (buf ++ [ch]) inTime rest
    else
      match parseI64 buf with
      | none => some none
      | some n =>
        match unitSeconds ch inTime with
        | none => some none
        | some size => do
          let unit ← TimeDelta.ofSeconds (n * size)
          let total ← TimeDelta.ofSeconds (total.seconds + unit.seconds)
          parseFrom total [] inTime rest

/-- The sign of a duration, and what is behind it. -/
def splitSign : List Char → ℤ × List Char
  | '-' :: rest => (-1, rest)
  | '+' :: rest => (1, rest)
  | raw => (1, raw)

/-- What is behind a sign and the `P`. -/
def body (raw : List Char) : Option (List Char) :=
  match (splitSign raw).2 with
  | 'P' :: rest => some rest
  | _ => none

/-- `parse_iso_duration` -/
def parseIsoDuration (raw : List Char) : Option (Option TimeDelta) :=
  match body raw with
  | none => some none
  | some rest =>
    match parseFrom .zero [] false rest with
    | none => none
    | some none => some none
    | some (some total) => (TimeDelta.ofSeconds (total.seconds * (splitSign raw).1)).map some

/-- `Duration::days(1)` or `Duration::minutes(30)` -/
def defaultDuration (isAllDay : Bool) : TimeDelta :=
  if isAllDay then ⟨86400, by decide⟩ else ⟨1800, by decide⟩

/-- `end_at` in `parse_event`, with what has been parsed of `DTSTART` and `DTEND` and the text of
`DURATION`; none where it panics. -/
def endAt (start : Instant) (isAllDay : Bool) (dtEnd : Option Instant)
    (duration : Option (List Char)) : Option Instant :=
  match dtEnd with
  | some dt => some dt
  | none =>
    match duration with
    | none => start.add (defaultDuration isAllDay)
    | some raw =>
      match parseIsoDuration raw with
      | none => none
      | some none => start.add (defaultDuration isAllDay)
      | some (some dur) => start.add dur

/-! ## What a text says -/

/-- A number in decimal. -/
def IsNumber (digits : List Char) : Prop := digits ≠ [] ∧ ∀ c ∈ digits, c.isDigit = true

/-- Its value. -/
def value (digits : List Char) : ℕ := Nat.ofDigitChars 10 digits 0

/-- A number with its unit, which may be left out. -/
def component (unit : Char) : Option (List Char) → List Char
  | none => []
  | some digits => digits ++ [unit]

/-- What a text denotes, in seconds. -/
inductive Denotes : List Char → ℕ → Prop
  | weeks {w : List Char} : IsNumber w → Denotes ('P' :: component 'W' (some w)) (value w * 604800)
  | days {d : List Char} : IsNumber d → Denotes ('P' :: component 'D' (some d)) (value d * 86400)
  | time {d h m s : Option (List Char)} : (∀ n ∈ d, IsNumber n) → (∀ n ∈ h, IsNumber n) →
      (∀ n ∈ m, IsNumber n) → (∀ n ∈ s, IsNumber n) →
      Denotes
        ('P' :: component 'D' d ++ 'T' :: component 'H' h ++ component 'M' m ++ component 'S' s)
        (d.elim 0 value * 86400 + h.elim 0 value * 3600 + m.elim 0 value * 60 + s.elim 0 value)

/-- What is right about the duration of an event. -/
structure Handled (start : Instant) (isAllDay : Bool) (dtEnd : Option Instant)
    (raw : List Char) : Prop where
  /-- it is parsed, or rejected -/
  parsed : ∃ duration, parseIsoDuration raw = some duration
  /-- the event has an end -/
  ended : ∃ stop, endAt start isAllDay dtEnd (some raw) = some stop
  /-- which is where an accepted text says -/
  denoted : ∀ seconds, Denotes raw seconds → (∃ d, parseIsoDuration raw = some (some d)) →
    dtEnd = none →
    ∃ stop, endAt start isAllDay dtEnd (some raw) = some stop ∧
      stop.time - start.time = seconds * 1000000000

/-- What a text adds up to until it is rejected, and whether it is not. -/
def denote (buf : List Char) (inTime : Bool) : List Char → ℕ × Bool
  | [] => (0, true)
  | ch :: rest =>
    if ch = 'T' then denote buf true rest
    else if ch.isDigit then denote (buf ++ [ch]) inTime rest
    else
      match parseI64 buf, unitSeconds ch inTime with
      | some n, some size =>
        let (sum, accepted) := denote [] inTime rest
        (n * size + sum, accepted)
      | _, _ => (0, false)

/-- What the text of a duration adds up to, in seconds. -/
def reached (raw : List Char) : ℕ := (body raw).elim 0 fun rest => (denote [] false rest).1

/-- Whether it is accepted. -/
def accepted (raw : List Char) : Bool := (body raw).any fun rest => (denote [] false rest).2

/-- The time from the start of an event to its end. -/
def length (isAllDay : Bool) (raw : List Char) : ℤ :=
  if accepted raw then reached raw * (splitSign raw).1 else (defaultDuration isAllDay).seconds

/-- A duration that is not too long, and an end that is not too far. -/
structure InRange (start : Instant) (isAllDay : Bool) (dtEnd : Option Instant)
    (raw : List Char) : Prop where
  duration : reached raw ≤ maxSeconds
  stop : dtEnd = none → minUtc ≤ start.time + length isAllDay raw * 1000000000 ∧
    start.time + length isAllDay raw * 1000000000 ≤ maxUtc

/-! ## The loop -/

variable {start : Instant} {isAllDay : Bool} {dtEnd : Option Instant} {raw : List Char}

theorem TimeDelta.ofSeconds_eq_none {seconds : ℤ} (h : ¬seconds.natAbs ≤ maxSeconds) :
    TimeDelta.ofSeconds seconds = none := dif_neg h

theorem TimeDelta.ofSeconds_eq_some {seconds : ℤ} (h : seconds.natAbs ≤ maxSeconds) :
    TimeDelta.ofSeconds seconds = some ⟨seconds, h⟩ := dif_pos h

/-- What the loop returns of a sum that it starts from and what a text adds. -/
def outcome (total : ℤ) (added : ℕ × Bool) : Option (Option TimeDelta) :=
  if (total + added.1).natAbs ≤ maxSeconds then
    some (if added.2 then TimeDelta.ofSeconds (total + added.1) else none)
  else none

theorem outcome_rejected (total : TimeDelta) : outcome total.seconds (0, false) = some none := by
  simp [outcome, total.inRange]

/-- **The loop** returns what the text adds up to, as long as that is in range. -/
theorem parseFrom_eq {total : TimeDelta} {buf text : List Char} {inTime : Bool}
    (htotal : 0 ≤ total.seconds) :
    parseFrom total buf inTime text = outcome total.seconds (denote buf inTime text) := by
  induction text generalizing total buf inTime with
  | nil => simp [parseFrom, denote, outcome, TimeDelta.ofSeconds_eq_some, total.inRange]
  | cons ch rest ih =>
    rw [parseFrom, denote]
    by_cases htime : ch = 'T'
    · rw [if_pos htime, if_pos htime, ih htotal]
    rw [if_neg htime, if_neg htime]
    by_cases hdigit : ch.isDigit = true
    · rw [if_pos hdigit, if_pos hdigit, ih htotal]
    rw [if_neg hdigit, if_neg hdigit]
    cases parseI64 buf with
    | none => exact (outcome_rejected total).symm
    | some n =>
      cases unitSeconds ch inTime with
      | none => exact (outcome_rejected total).symm
      | some size =>
        simp only
        have hunit : 0 ≤ (n : ℤ) * size := by positivity
        by_cases hsum : (total.seconds + n * size).natAbs ≤ maxSeconds
        · have hsize : ((n : ℤ) * size).natAbs ≤ maxSeconds := by omega
          rw [TimeDelta.ofSeconds_eq_some hsize, Option.bind_eq_bind, Option.bind_some,
            TimeDelta.ofSeconds_eq_some hsum, Option.bind_some, ih (by simp only; omega)]
          simp [outcome, add_assoc]
        · have hmore : ¬(total.seconds + ((n * size + (denote [] inTime rest).1 : ℕ) : ℤ)).natAbs ≤
              maxSeconds := by
            push_cast
            omega
          rw [outcome, if_neg hmore]
          by_cases hsize : ((n : ℤ) * size).natAbs ≤ maxSeconds
          · rw [TimeDelta.ofSeconds_eq_some hsize, Option.bind_eq_bind, Option.bind_some,
              TimeDelta.ofSeconds_eq_none hsum]
            rfl
          · rw [TimeDelta.ofSeconds_eq_none hsize]
            rfl

theorem splitSign_cases (raw : List Char) : (splitSign raw).1 = 1 ∨ (splitSign raw).1 = -1 := by
  rw [splitSign.eq_def]
  split
  · exact .inr rfl
  · exact .inl rfl
  · exact .inl rfl

theorem natAbs_mul_sign (n : ℕ) (raw : List Char) : ((n : ℤ) * (splitSign raw).1).natAbs = n := by
  rcases splitSign_cases raw with h | h <;> simp [h]

/-- The duration that is parsed: none where the text is rejected, and a panic where it is too long. -/
theorem parseIsoDuration_eq (raw : List Char) :
    parseIsoDuration raw =
      if reached raw ≤ maxSeconds then
        some (if accepted raw then TimeDelta.ofSeconds (reached raw * (splitSign raw).1) else none)
      else none := by
  rw [parseIsoDuration, reached, accepted]
  cases hbody : body raw with
  | none => simp
  | some rest =>
    have hloop : parseFrom .zero [] false rest = outcome 0 (denote [] false rest) :=
      parseFrom_eq le_rfl
    rcases hdenote : denote [] false rest with ⟨sum, accepted⟩
    rw [hdenote] at hloop
    simp only [hloop, hdenote, Option.elim_some, Option.any_some]
    have habs : ((0 : ℤ) + sum).natAbs = sum := by omega
    have hsign := natAbs_mul_sign sum raw
    by_cases hsum : sum ≤ maxSeconds
    · cases accepted with
      | false => simp [outcome, hsum]
      | true => simp [outcome, hsum, TimeDelta.ofSeconds_eq_some, hsign]
    · simp [outcome, hsum]

/-- The end of an event without a `DTEND` and with a duration that is not too long. -/
theorem endAt_eq (start : Instant) (isAllDay : Bool) (h : reached raw ≤ maxSeconds) :
    ∃ d : TimeDelta, endAt start isAllDay none (some raw) = start.add d ∧
      d.seconds = length isAllDay raw := by
  rw [endAt, length]
  simp only [parseIsoDuration_eq, if_pos h]
  cases accepted raw with
  | false => exact ⟨defaultDuration isAllDay, rfl, rfl⟩
  | true =>
    have hsign : (reached raw * (splitSign raw).1 : ℤ).natAbs ≤ maxSeconds := by
      rwa [natAbs_mul_sign]
    rw [if_pos rfl, TimeDelta.ofSeconds_eq_some hsign]
    exact ⟨⟨_, hsign⟩, rfl, rfl⟩

theorem Instant.add_eq_some_iff {t stop : Instant} {d : TimeDelta} :
    t.add d = some stop ↔ stop.time = t.time + d.seconds * 1000000000 := by
  rw [Instant.add]
  split
  · rw [Option.some_inj]
    refine ⟨fun h => h ▸ rfl, fun h => ?_⟩
    obtain ⟨time, inRange⟩ := stop
    simp only at h
    subst h
    rfl
  · next hnot =>
    refine ⟨fun h => absurd h (by simp), fun h => absurd ?_ hnot⟩
    rw [← h]
    exact stop.inRange

/-! ## What is denoted -/

theorem denote_append {digits : List Char} (h : ∀ c ∈ digits, c.isDigit = true) (buf : List Char)
    (inTime : Bool) (rest : List Char) :
    denote buf inTime (digits ++ rest) = denote (buf ++ digits) inTime rest := by
  induction digits generalizing buf with
  | nil => rw [List.nil_append, List.append_nil]
  | cons c digits ih =>
    obtain ⟨hc, hdigits⟩ := List.forall_mem_cons.mp h
    have hne : c ≠ 'T' := by
      rintro rfl
      exact absurd hc (by decide)
    rw [List.cons_append, denote, if_neg hne, if_pos hc, ih hdigits, List.append_assoc,
      List.singleton_append]

/-- A number with its unit adds what it denotes, if it is accepted. -/
theorem denote_number {digits rest : List Char} {unit : Char} {inTime : Bool} {size : ℕ}
    (h : IsNumber digits) (hsize : unitSeconds unit inTime = some size) (hT : unit ≠ 'T')
    (hdigit : unit.isDigit = false)
    (haccepted : (denote [] inTime (digits ++ [unit] ++ rest)).2 = true) :
    (denote [] inTime (digits ++ [unit] ++ rest)).1 =
      value digits * size + (denote [] inTime rest).1 ∧ (denote [] inTime rest).2 = true := by
  rw [List.append_assoc, denote_append h.2, List.nil_append, List.singleton_append, denote,
    if_neg hT, hdigit, if_neg (by simp), hsize] at haccepted ⊢
  rcases hn : parseI64 digits with _ | n
  · rw [hn] at haccepted
    cases haccepted
  · rw [hn] at haccepted
    rw [parseI64] at hn
    split at hn
    · rw [← Option.some.inj hn]
      exact ⟨rfl, haccepted⟩
    · cases hn

theorem denote_component {digits : Option (List Char)} {rest : List Char} {unit : Char}
    {inTime : Bool} {size : ℕ} (h : ∀ n ∈ digits, IsNumber n)
    (hsize : unitSeconds unit inTime = some size) (hT : unit ≠ 'T') (hdigit : unit.isDigit = false)
    (haccepted : (denote [] inTime (component unit digits ++ rest)).2 = true) :
    (denote [] inTime (component unit digits ++ rest)).1 =
      digits.elim 0 value * size + (denote [] inTime rest).1 ∧ (denote [] inTime rest).2 = true := by
  cases digits with
  | none => exact ⟨by simp [component], haccepted⟩
  | some n => exact denote_number (h n rfl) hsize hT hdigit haccepted

/-- A text with one component only. -/
theorem reached_of_component {n : List Char} {unit : Char} {size : ℕ} (h : IsNumber n)
    (hsize : unitSeconds unit false = some size) (hT : unit ≠ 'T') (hdigit : unit.isDigit = false)
    (haccepted : accepted ('P' :: component unit (some n)) = true) :
    reached ('P' :: component unit (some n)) = value n * size := by
  have hbody : body ('P' :: component unit (some n)) = some (component unit (some n) ++ []) := by
    rw [List.append_nil]
    rfl
  rw [accepted, hbody] at haccepted
  obtain ⟨hsum, -⟩ := denote_component (by simpa using h) hsize hT hdigit haccepted
  rw [reached, hbody, Option.elim_some, hsum]
  simp [denote]

/-- **An accepted text** adds up to what it denotes. -/
theorem reached_of_denotes {seconds : ℕ} (h : Denotes raw seconds) (haccepted : accepted raw = true) :
    reached raw = seconds ∧ (splitSign raw).1 = 1 := by
  cases h with
  | @weeks w hw =>
    exact ⟨reached_of_component hw rfl (by decide) (by decide) haccepted, rfl⟩
  | @days d hd =>
    exact ⟨reached_of_component hd rfl (by decide) (by decide) haccepted, rfl⟩
  | @time d h m s hd hh hm hs =>
    have hbody : body ('P' :: component 'D' d ++ 'T' :: component 'H' h ++ component 'M' m ++
        component 'S' s) = some (component 'D' d ++ ('T' :: (component 'H' h ++
          (component 'M' m ++ (component 'S' s ++ []))))) := by
      simp only [List.append_assoc, List.cons_append, List.append_nil]
      rfl
    have htime : ∀ rest, denote [] false ('T' :: rest) = denote [] true rest := fun _ => rfl
    rw [accepted, hbody] at haccepted
    rw [reached, hbody]
    obtain ⟨hday, hrest⟩ := denote_component hd rfl (by decide) (by decide) haccepted
    rw [htime] at hday hrest
    obtain ⟨hhour, hrest⟩ := denote_component hh rfl (by decide) (by decide) hrest
    obtain ⟨hminute, hrest⟩ := denote_component hm rfl (by decide) (by decide) hrest
    obtain ⟨hsecond, -⟩ := denote_component hs rfl (by decide) (by decide) hrest
    refine ⟨?_, rfl⟩
    rw [Option.elim_some, hday, hhour, hminute, hsecond]
    simp only [denote]
    omega

theorem length_of_denotes {seconds : ℕ} (h : Denotes raw seconds) (haccepted : accepted raw = true)
    (isAllDay : Bool) : length isAllDay raw = seconds := by
  obtain ⟨hsum, hsign⟩ := reached_of_denotes h haccepted
  rw [length, haccepted, if_pos rfl, hsum, hsign, mul_one]

/-- **The duration of an event** is handled as it should be exactly if it is not too long and does not end
too late. -/
theorem handled_iff (start : Instant) (isAllDay : Bool) (dtEnd : Option Instant) (raw : List Char) :
    Handled start isAllDay dtEnd raw ↔ InRange start isAllDay dtEnd raw := by
  refine ⟨fun hhandled => ?_, fun hrange => ?_⟩
  · have hduration : reached raw ≤ maxSeconds := by
      obtain ⟨duration, hparsed⟩ := hhandled.parsed
      rw [parseIsoDuration_eq] at hparsed
      by_contra hlong
      rw [if_neg hlong] at hparsed
      cases hparsed
    refine ⟨hduration, fun hnone => ?_⟩
    subst hnone
    obtain ⟨stop, hstop⟩ := hhandled.ended
    obtain ⟨d, hd, hlength⟩ := endAt_eq start isAllDay hduration
    rw [hd, Instant.add_eq_some_iff, hlength] at hstop
    rw [← hstop]
    exact stop.inRange
  · have hended : ∃ stop, endAt start isAllDay dtEnd (some raw) = some stop ∧
        (dtEnd = none → stop.time = start.time + length isAllDay raw * 1000000000) := by
      cases dtEnd with
      | some dt => exact ⟨dt, rfl, fun h => by cases h⟩
      | none =>
        obtain ⟨d, hd, hlength⟩ := endAt_eq start isAllDay hrange.duration
        refine ⟨⟨_, hrange.stop rfl⟩, ?_, fun _ => rfl⟩
        rw [hd, Instant.add_eq_some_iff, hlength]
    obtain ⟨stop, hstop, htime⟩ := hended
    refine ⟨⟨_, by rw [parseIsoDuration_eq, if_pos hrange.duration]⟩, ⟨stop, hstop⟩, ?_⟩
    rintro seconds hdenotes ⟨d, hd⟩ hnone
    have haccepted : accepted raw = true := by
      rw [parseIsoDuration_eq, if_pos hrange.duration] at hd
      by_contra hrejected
      rw [if_neg hrejected] at hd
      cases hd
    refine ⟨stop, hstop, ?_⟩
    rw [htime hnone, length_of_denotes hdenotes haccepted isAllDay]
    omega

/-- More weeks than a duration has. -/
theorem not_handled_weeks : ¬Handled ⟨1767225600000000000, by decide⟩ false none
    "P99999999999W".toList := by
  rintro ⟨⟨duration, hparsed⟩, -, -⟩
  have hpanics : parseIsoDuration "P99999999999W".toList = none := by decide +kernel
  rw [hpanics] at hparsed
  cases hparsed

end Durations

end MeetilyLocal
