import HelpDesk.Config
import HelpDesk.Proofs.DecimalTexts
import HelpDesk.Socket

/-! What becomes of the variables of the environment. Three of them give numbers that must not be zero, and are judged one
after the other; then the period of the pings is derived from the first. Everything else has a default to fall back on. -/

namespace HelpDesk

section Lengths
variable {d p : Span}

/-- A multiple of seconds and nanoseconds can be held if its seconds can, with what is carried to them. -/
theorem Span.mul_lt_limit_iff (seconds nanos n : Nat) :
    (Span.ofSeconds seconds + nanos) * n < Span.limit ↔ seconds * n + nanos * n / Span.perSecond < 2 ^ 64 := by
  have second : 0 < Span.perSecond := by decide
  have carried : (Span.ofSeconds seconds + nanos) * n / Span.perSecond = seconds * n + nanos * n / Span.perSecond := by
    rw [Nat.add_mul, Span.ofSeconds, Nat.mul_right_comm, Nat.mul_comm (seconds * n), Nat.mul_add_div second]
  rw [← carried]
  exact (Nat.div_lt_iff_lt_mul second).symm

theorem Settings.pingPeriodFor?_eq_some_iff : pingPeriodFor? d = some p ↔ d * 9 < Span.limit ∧ p = d * 9 / 10 := by
  unfold pingPeriodFor? Span.times?
  split
  next fits => simp [fits, eq_comm]
  next long => simp [long]

/-- Whole seconds have tenths without a remainder. -/
theorem Span.tenths_ofSeconds (n : Nat) : 10 * (Span.ofSeconds n * 9 / 10) = 9 * Span.ofSeconds n := by
  change (10 * (n * 1000000000 * 9 / 10) : Nat) = 9 * (n * 1000000000)
  omega

theorem Span.ofSeconds_mul_lt_limit_iff (n : Nat) : Span.ofSeconds n * 9 < Span.limit ↔ 9 * n < 2 ^ 64 := by
  have held := Span.mul_lt_limit_iff n 0 9
  rwa [Nat.add_zero, Nat.zero_mul, Nat.zero_div, Nat.add_zero, Nat.mul_comm n] at held

/-- Of two nanoseconds or more, nine tenths are something, and less than the whole. -/
theorem Span.tenths_bounds {d : Nat} (two : 2 ≤ d) : 0 < d * 9 / 10 ∧ d * 9 / 10 < d := by
  omega

end Lengths

/-- A frame that is short enough as a message is refused by the limit of frames, or not at all. -/
theorem Socket.inbound_message_iff {limits : Limits} {frame : SocketFrame} (short : frame.contentSize ≤ limits.message)
    (data : (∃ text, frame = .text text) ∨ ∃ bytes, frame = .binary bytes) :
    inbound limits frame = .frame frame ↔ frame.contentSize ≤ limits.frame := by
  have whole : inbound limits frame = if limits.frame < frame.contentSize ∨ limits.message < frame.contentSize
      then .failure else .frame frame := by
    obtain ⟨text, rfl⟩ | ⟨bytes, rfl⟩ := data <;> simp [inbound]
  rw [whole, ← Nat.not_lt]
  split
  next long => exact iff_of_false (fun same => by cases same) fun fits => long.elim fits (Nat.not_lt.mpr short)
  next fits => exact iff_of_true rfl fun long => fits (.inl long)

/-- Settings that a socket can be held to. -/
structure Settings.Usable (s : Settings) : Prop where
  pongWait : 0 < s.pongWait
  writeWait : 0 < s.writeWait
  queueCapacity : 0 < s.queueCapacity
  /-- a ping is due before its pong is missed -/
  pingPeriod : 0 < s.pingPeriod ∧ s.pingPeriod < s.pongWait
  tenths : 10 * s.pingPeriod = 9 * s.pongWait
  maxMessageBytes : s.maxFrameBytes ≤ s.maxMessageBytes ∧ 65536 ≤ s.maxMessageBytes
  /-- With this limit of messages, which an upgrade sets, nothing is refused as a message that is short enough to be taken in.
  If it comes in one frame, only the limit of frames refuses it, which an upgrade does not set. -/
  texts : ∀ limits : Socket.Limits, limits.message = s.maxMessageBytes → ∀ text, text.utf8ByteSize ≤ s.maxFrameBytes →
    (Socket.inbound limits (.text text) = .frame (.text text) ↔ text.utf8ByteSize ≤ limits.frame)
  binaries : ∀ limits : Socket.Limits, limits.message = s.maxMessageBytes → ∀ bytes, bytes.length ≤ s.maxFrameBytes →
    (Socket.inbound limits (.binary bytes) = .frame (.binary bytes) ↔ bytes.length ≤ limits.frame)

namespace Config
variable {environment : String → Option String} {name : String} {bits fallback n pong queue write : Nat}

/-- What a variable counts: the number that it is set to, or else the default. -/
inductive Counts (environment : String → Option String) (bits : Nat) (name : String) (fallback : Nat) : Nat → Prop
  | set {text : String} {n : Nat} (value : environment name = some text) (denotes : Text.Denotes text n)
      (fits : n < 2 ^ bits) : Counts environment bits name fallback n
  | other (unfit : ∀ text n, environment name = some text → Text.Denotes text n → ¬ n < 2 ^ bits) :
      Counts environment bits name fallback fallback

theorem counts_iff : Counts environment bits name fallback n ↔ number environment bits name fallback = n := by
  have read (n : Nat) : (environment name).bind (Text.unsigned? bits) = some n ↔
      ∃ text, environment name = some text ∧ Text.Denotes text n ∧ n < 2 ^ bits := by
    simp only [Option.bind_eq_some_iff, Text.unsigned?_eq_some_iff]
  unfold number
  constructor
  · intro counts
    cases counts with
    | set value denotes fits => rw [(read n).mpr ⟨_, value, denotes, fits⟩, Option.getD_some]
    | other unfit =>
      have none : (environment name).bind (Text.unsigned? bits) = none := by
        refine Option.eq_none_iff_forall_ne_some.mpr fun n some => ?_
        obtain ⟨text, value, denotes, fits⟩ := (read n).mp some
        exact unfit text n value denotes fits
      rw [none, Option.getD_none]
  · rintro rfl
    cases found : (environment name).bind (Text.unsigned? bits) with
    | some n =>
      obtain ⟨text, value, denotes, fits⟩ := (read n).mp found
      exact .set value denotes fits
    | none =>
      refine .other fun text n value denotes fits => ?_
      have some := (read n).mpr ⟨text, value, denotes, fits⟩
      rw [found] at some
      cases some

/-- The three numbers that must not be zero. -/
structure Essentials (environment : String → Option String) (pong queue write : Nat) : Prop where
  pongWait : Counts environment 64 "WS_PONG_WAIT_SECS" 60 pong
  queueCapacity : Counts environment 64 "WS_OUTBOUND_QUEUE" 256 queue
  writeWait : Counts environment 64 "WS_WRITE_WAIT_SECS" 10 write

/-- What loading comes to, by the three numbers. -/
inductive Loads (pong queue write : Nat) : Except ConfigError Config → Prop
  | noPongWait (zero : pong = 0) : Loads pong queue write (.error (.zero "WS_PONG_WAIT_SECS"))
  | noQueue (positive : 0 < pong) (zero : queue = 0) : Loads pong queue write (.error (.zero "WS_OUTBOUND_QUEUE"))
  | noWriteWait (positive : 0 < pong ∧ 0 < queue) (zero : write = 0) :
      Loads pong queue write (.error (.zero "WS_WRITE_WAIT_SECS"))
  | overflow (positive : 0 < pong ∧ 0 < queue ∧ 0 < write) (long : 2 ^ 64 ≤ 9 * pong) :
      Loads pong queue write (.error .overflow)
  | loaded (config : Config) (positive : 0 < pong ∧ 0 < queue ∧ 0 < write) (short : 9 * pong < 2 ^ 64)
      (pongWait : config.settings.pongWait = .ofSeconds pong)
      (pingPeriod : config.settings.pingPeriod = Span.ofSeconds pong * 9 / 10)
      (writeWait : config.settings.writeWait = .ofSeconds write) (capacity : config.settings.queueCapacity = queue) :
      Loads pong queue write (.ok config)

private theorem ok_bind {α β : Type} (a : α) (next : α → Except ConfigError β) : (Except.ok a >>= next) = next a :=
  rfl

theorem Essentials.loads (essentials : Essentials environment pong queue write) :
    Loads pong queue write (load environment) := by
  have checked (name : String) {fallback n : Nat} (counts : Counts environment 64 name fallback n) :
      positive environment name fallback = if n = 0 then .error (.zero name) else .ok n := by
    rw [positive, counts_iff.mp counts]
  have first := checked _ essentials.pongWait
  have second := checked _ essentials.queueCapacity
  have third := checked _ essentials.writeWait
  have held := Span.ofSeconds_mul_lt_limit_iff pong
  unfold load
  rw [first, show Settings.default.queueCapacity = 256 from rfl, second, third]
  by_cases one : pong = 0
  · rw [if_pos one]
    exact .noPongWait one
  rw [if_neg one]
  by_cases two : queue = 0
  · rw [if_pos two]
    exact .noQueue (Nat.pos_of_ne_zero one) two
  rw [if_neg two]
  by_cases three : write = 0
  · rw [if_pos three]
    exact .noWriteWait ⟨Nat.pos_of_ne_zero one, Nat.pos_of_ne_zero two⟩ three
  rw [if_neg three]
  have positive : 0 < pong ∧ 0 < queue ∧ 0 < write :=
    ⟨Nat.pos_of_ne_zero one, Nat.pos_of_ne_zero two, Nat.pos_of_ne_zero three⟩
  rw [ok_bind, ok_bind, ok_bind]
  cases derived : Settings.pingPeriodFor? (Span.ofSeconds pong) with
  | none =>
    refine .overflow positive (Nat.le_of_not_lt fun short => ?_)
    rw [Settings.pingPeriodFor?_eq_some_iff.mpr ⟨held.mpr short, rfl⟩] at derived
    cases derived
  | some pingPeriod =>
    obtain ⟨short, period⟩ := Settings.pingPeriodFor?_eq_some_iff.mp derived
    exact .loaded _ positive (held.mp short) rfl period rfl rfl

theorem essentials_numbers (environment : String → Option String) : Essentials environment
    (number environment 64 "WS_PONG_WAIT_SECS" 60) (number environment 64 "WS_OUTBOUND_QUEUE" 256)
    (number environment 64 "WS_WRITE_WAIT_SECS" 10) :=
  ⟨counts_iff.mpr rfl, counts_iff.mpr rfl, counts_iff.mpr rfl⟩

section Outcomes
variable {outcome : Except ConfigError Config} (loads : Loads pong queue write outcome)
include loads

theorem Loads.overflow_iff : outcome = .error .overflow ↔ 0 < pong ∧ 0 < queue ∧ 0 < write ∧ 2 ^ 64 ≤ 9 * pong := by
  cases loads with
  | noPongWait zero | noQueue _ zero | noWriteWait _ zero =>
    refine iff_of_false (fun same => by cases same) fun all => ?_
    omega
  | overflow positive long => exact iff_of_true rfl ⟨positive.1, positive.2.1, positive.2.2, long⟩
  | loaded config positive short =>
    refine iff_of_false (fun same => by cases same) fun all => ?_
    omega

/-- The first of the three numbers that is zero is named. -/
theorem Loads.zero_iff (name : String) : outcome = .error (.zero name) ↔
    name = "WS_PONG_WAIT_SECS" ∧ pong = 0 ∨ name = "WS_OUTBOUND_QUEUE" ∧ 0 < pong ∧ queue = 0 ∨
      name = "WS_WRITE_WAIT_SECS" ∧ 0 < pong ∧ 0 < queue ∧ write = 0 := by
  cases loads with
  | noPongWait zero => simp [zero, eq_comm]
  | noQueue positive zero => simp [positive, positive.ne', zero, eq_comm]
  | noWriteWait positive zero =>
    simp [positive.1, positive.2, positive.1.ne', positive.2.ne', zero, eq_comm]
  | overflow positive | loaded config positive =>
    obtain ⟨first, second, third⟩ := positive
    simp [first.ne', second.ne', third.ne']

theorem Loads.usable {config : Config} (loaded : outcome = .ok config) : config.settings.Usable := by
  cases loads with
  | noPongWait | noQueue | noWriteWait | overflow => cases loaded
  | loaded config' positive short pongWait pingPeriod writeWait capacity =>
    cases loaded
    have seconds (n : Nat) (some : 0 < n) : 2 ≤ Span.ofSeconds n := by
      change 2 ≤ n * 1000000000
      omega
    have large := Nat.le_max_left config.settings.maxFrameBytes Settings.protocolFloorBytes
    refine ⟨?_, ?_, ?_, ?_, ?_, ⟨large, Nat.le_max_right _ _⟩, fun limits same text short => ?_,
      fun limits same bytes short => ?_⟩
    · rw [pongWait]
      exact Nat.lt_of_lt_of_le Nat.two_pos (seconds pong positive.1)
    · rw [writeWait]
      exact Nat.lt_of_lt_of_le Nat.two_pos (seconds write positive.2.2)
    · rw [capacity]
      exact positive.2.1
    · rw [pingPeriod, pongWait]
      exact Span.tenths_bounds (seconds pong positive.1)
    · rw [pingPeriod, pongWait]
      exact Span.tenths_ofSeconds pong
    · exact Socket.inbound_message_iff (same ▸ short.trans large) (.inl ⟨text, rfl⟩)
    · exact Socket.inbound_message_iff (same ▸ short.trans large) (.inr ⟨bytes, rfl⟩)

end Outcomes

/-- Whatever the variables are set to, loading ends with a configuration or names a number that must not be zero, but for one
case: none of the three numbers is zero, and nine times the seconds of the wait for pongs cannot be held. Then the period of
the pings overflows. -/
theorem load_answers_iff (bytes : String → Option (List UInt8)) :
    ∃ pong queue write, Essentials (readable bytes) pong queue write ∧
      (((∃ config, load (readable bytes) = .ok config) ∨ ∃ name, load (readable bytes) = .error (.zero name)) ↔
        ¬ (0 < pong ∧ 0 < queue ∧ 0 < write ∧ 2 ^ 64 ≤ 9 * pong)) ∧
      (load (readable bytes) = .error .overflow ↔ 0 < pong ∧ 0 < queue ∧ 0 < write ∧ 2 ^ 64 ≤ 9 * pong) := by
  have essentials := essentials_numbers (readable bytes)
  have overflows := essentials.loads.overflow_iff
  refine ⟨_, _, _, essentials, ?_, overflows⟩
  rw [← overflows]
  cases load (readable bytes) with
  | ok config => simp
  | error error => cases error <;> simp

/-- The shortest wait for pongs that is too long. -/
theorem load_overflows_of_long_wait :
    let bytes (seconds name : String) : Option (List UInt8) :=
      if name = "WS_PONG_WAIT_SECS" then some seconds.toUTF8.data.toList else none
    load (readable (bytes "2049638230412172402")) = .error .overflow ∧
      (load (readable (bytes "2049638230412172401"))).isOk = true := by
  decide +kernel

/-- A configuration that is loaded can be lived by. A number is refused exactly if it is zero, and the first of the three that
is zero is named. Not only whole seconds have a period that is shorter than they are: every length from two nanoseconds on
has, if nine times as much can be held. -/
theorem loaded_settings_usable (bytes : String → Option (List UInt8)) :
    (∀ config, load (readable bytes) = .ok config → config.settings.Usable) ∧
    (∃ pong queue write, Essentials (readable bytes) pong queue write ∧
      ∀ name, load (readable bytes) = .error (.zero name) ↔ name = "WS_PONG_WAIT_SECS" ∧ pong = 0 ∨
        name = "WS_OUTBOUND_QUEUE" ∧ 0 < pong ∧ queue = 0 ∨
        name = "WS_WRITE_WAIT_SECS" ∧ 0 < pong ∧ 0 < queue ∧ write = 0) ∧
    ∀ seconds nanos, 2 ≤ Span.ofSeconds seconds + nanos → seconds * 9 + nanos * 9 / 1000000000 < 2 ^ 64 →
      ∃ s, Settings.withPongWait? (.ofSeconds seconds + nanos) = some s ∧ s.pongWait = .ofSeconds seconds + nanos ∧
        0 < s.pingPeriod ∧ s.pingPeriod < s.pongWait := by
  have essentials := essentials_numbers (readable bytes)
  refine ⟨fun config loaded => essentials.loads.usable loaded, ⟨_, _, _, essentials, essentials.loads.zero_iff⟩, ?_⟩
  intro seconds nanos two short
  have period := Settings.pingPeriodFor?_eq_some_iff.mpr ⟨(Span.mul_lt_limit_iff seconds nanos 9).mpr short, rfl⟩
  refine ⟨_, by rw [Settings.withPongWait?, period, Option.map_some], rfl, ?_⟩
  exact Span.tenths_bounds two

/-- The wait for pongs has a sign, and the longest frame that is taken in is longer than what a socket bears by default. Then
one frame of 17 million bytes, which the limit of messages lets pass, is refused all the same: an upgrade leaves the limit of
frames as it is. Two nanoseconds are the shortest wait that has a period at all. -/
theorem loaded_settings_usable_of_long_frames :
    let bytes (name : String) : Option (List UInt8) :=
      if name = "WS_PONG_WAIT_SECS" then some "+30".toUTF8.data.toList
      else if name = "WS_MAX_FRAME_BYTES" then some "20000000".toUTF8.data.toList else none
    let frame := SocketFrame.binary (List.replicate 17000000 0)
    ∃ config, load (readable bytes) = .ok config ∧ config.settings.pongWait = .ofSeconds 30 ∧
      config.settings.pingPeriod = .ofSeconds 27 ∧ config.settings.maxMessageBytes = 20000000 ∧ config.settings.Usable ∧
      Socket.inbound ⟨20000000, 17000000⟩ frame = .frame frame ∧
      Socket.inbound (.of config.settings) frame ≠ .frame frame ∧
      ∃ s, Settings.withPongWait? (.ofSeconds 0 + 2) = some s ∧ s.pongWait = .ofSeconds 0 + 2 ∧ s.pingPeriod = 1 := by
  intro bytes frame
  have found : (load (readable bytes)).toOption.map (fun config => (config.settings.pongWait, config.settings.pingPeriod,
      config.settings.maxFrameBytes)) = some (.ofSeconds 30, .ofSeconds 27, 20000000) := by
    decide +kernel
  cases loaded : load (readable bytes) with
  | error error =>
    rw [loaded] at found
    cases found
  | ok config =>
    rw [loaded] at found
    obtain ⟨pongWait, rest⟩ := Prod.mk.inj (Option.some.inj found)
    obtain ⟨pingPeriod, frames⟩ := Prod.mk.inj rest
    obtain ⟨usable, -, periods⟩ := loaded_settings_usable bytes
    obtain ⟨s, derived, whole, some, less⟩ := periods 0 2 (by decide) (by decide)
    rw [whole] at less
    have one : s.pingPeriod = 1 := Nat.le_antisymm (Nat.le_of_lt_succ less) some
    have messages : config.settings.maxMessageBytes = 20000000 := by
      rw [Settings.maxMessageBytes, frames]
      rfl
    have size : (List.replicate 17000000 (0 : UInt8)).length = 17000000 := List.length_replicate
    have short : (List.replicate 17000000 (0 : UInt8)).length ≤ config.settings.maxFrameBytes := by
      rw [size, frames]
      decide
    have taken (limits : Socket.Limits) (same : limits.message = config.settings.maxMessageBytes) :
        Socket.inbound limits frame = .frame frame ↔ 17000000 ≤ limits.frame := by
      have iff := (usable config loaded).binaries limits same _ short
      rwa [size] at iff
    refine ⟨config, rfl, pongWait, pingPeriod, messages, usable config loaded, ?_, ?_, s, derived, whole, one⟩
    · exact (taken ⟨20000000, 17000000⟩ messages.symm).mpr (Nat.le_refl _)
    · intro passed
      have long : ¬ 17000000 ≤ Socket.defaultFrameBytes := by decide
      exact long ((taken (.of config.settings) rfl).mp passed)

end Config

end HelpDesk
