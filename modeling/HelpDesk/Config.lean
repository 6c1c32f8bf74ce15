import HelpDesk.Settings
import HelpDesk.Text.Blank
import HelpDesk.Text.Decimal
import HelpDesk.Text.LowerCase
import HelpDesk.Text.Utf8

/-! The configuration that the server reads from its environment. A number that cannot be read gives way to its
default; a number that must not be zero is refused. -/

namespace HelpDesk

structure Config where
  bindAddress : String
  /-- where the database is; without one, conversations are kept in memory -/
  databaseUrl : Option String
  databaseMaxConnections : Nat
  runMigrations : Bool
  settings : Settings
  deriving DecidableEq, Repr

inductive ConfigError
  | zero (name : String)
  /-- the wait for pongs is so long that nine times as much cannot be held -/
  | overflow
  deriving DecidableEq, Repr

def ConfigError.message : ConfigError → String
  | zero name => "Invalid configuration: " ++ name ++ " must be greater than zero"
  | overflow => "overflow when multiplying duration by scalar"

namespace Config

def default : Config where
  bindAddress := "0.0.0.0:8080"
  databaseUrl := none
  databaseMaxConnections := 10
  runMigrations := true
  settings := .default

/-- What can be read of variables that are set to any bytes. One that is set to no text counts as not set. -/
def readable (bytes : String → Option (List UInt8)) (name : String) : Option String :=
  (bytes name).bind Text.Utf8.decode?

/-- A variable's number of so many bits; the default if it is not set or no such number. -/
def number (environment : String → Option String) (bits : Nat) (name : String) (fallback : Nat) : Nat :=
  ((environment name).bind (Text.unsigned? bits)).getD fallback

def positive (environment : String → Option String) (name : String) (fallback : Nat) : Except ConfigError Nat :=
  let n := number environment 64 name fallback
  if n = 0 then .error (.zero name) else .ok n

def migrationsWanted (value : String) : Bool :=
  Text.lowerCase value != "false" && value != "0"

/-- Reads the configuration from the environment, a variable that is not set being none. -/
def load (environment : String → Option String) : Except ConfigError Config := do
  let pongWait ← positive environment "WS_PONG_WAIT_SECS" 60
  let queueCapacity ← positive environment "WS_OUTBOUND_QUEUE" Settings.default.queueCapacity
  let writeWait ← positive environment "WS_WRITE_WAIT_SECS" 10
  match Settings.pingPeriodFor? (.ofSeconds pongWait) with
  | none => .error .overflow
  | some pingPeriod =>
    .ok {
      bindAddress := (environment "BIND_ADDRESS").getD default.bindAddress
      databaseUrl := (environment "DATABASE_URL").filter fun url => !(Text.trim url).isEmpty
      databaseMaxConnections :=
        number environment 32 "DATABASE_MAX_CONNECTIONS" default.databaseMaxConnections
      runMigrations := match environment "RUN_MIGRATIONS" with
        | some value => migrationsWanted value
        | none => true
      settings := {
        maxFrameBytes := number environment 64 "WS_MAX_FRAME_BYTES" Settings.default.maxFrameBytes
        pongWait := .ofSeconds pongWait
        pingPeriod
        writeWait := .ofSeconds writeWait
        queueCapacity } }

end Config

end HelpDesk
