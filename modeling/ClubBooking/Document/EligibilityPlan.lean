import ClubBooking.Document.DiscountPlan
import ClubBooking.Document.Values
import ClubBooking.Eligibility.Assembly
import ClubBooking.Json.Reader

/-! Eligibility policies as documents: a level or a list of rules, and a window of hours. The ends
of the window are hours and minutes with a colon between; each part is one digit or more, a plus
sign allowed in front, and the first fault is named. -/

namespace ClubBooking

namespace TimeOfDay

def clockPart (cs : List Char) (fault : Misconfiguration) : Except Fault Nat :=
  match Text.unsigned 4294967296 cs with
  | .ok n => .ok n
  | .error _ => .error (.misconfigured fault)

def ofClockText (s : String) : Except Fault TimeOfDay :=
  match s.toList.splitOn ':' with
  | [hour, minute] => do
    let hour ← clockPart hour (.hour s)
    let minute ← clockPart minute (.minute s)
    if 24 ≤ hour then .error (.misconfigured (.hourRange s))
    else match ofHourMinute? hour minute with
      | some t => .ok t
      | none => .error (.misconfigured (.minuteRange s))
  | _ => .error (.misconfigured (.timeFormat s))

end TimeOfDay

/-- Slots that start in a window are the only ones accepted, or the ones refused. -/
structure WindowRule where
  start : String
  stop : String
  days : List Weekday
  deny : Bool

structure EligibilityPlan where
  name : String
  level : Level
  /-- None listed: the rules of the level. -/
  rules : List RuleName
  mode : CombinationMode
  window : Option WindowRule

namespace WindowRule

def timeProblems (field s : String) : Problems :=
  match TimeOfDay.ofClockText s with
  | .ok _ => []
  | .error _ => [⟨field, .timeFormat s⟩]

def problems (w : WindowRule) : Problems :=
  timeProblems "end" w.stop ++ timeProblems "start" w.start

def build (w : WindowRule) : Except Fault StartRestriction := do
  w.problems.check
  let start ← TimeOfDay.ofClockText w.start
  let stop ← TimeOfDay.ofClockText w.stop
  let hours ← HourWindow.make start stop
  pure ⟨w.deny, w.days, some hours⟩

def ofJson? (j : Json) : Option WindowRule :=
  match j.record? ["start", "end", "days", "deny"] 2 with
  | some [start, stop, days, deny] => do
    pure {
      start := ← Json.field? Json.text? start
      stop := ← Json.field? Json.text? stop
      days := ← Json.fieldOr? [] (Json.list? Json.weekday?) days
      deny := ← Json.fieldOr? false Json.bool? deny }
  | _ => none

def toJson (w : WindowRule) : Json :=
  .record [("start", .text w.start), ("end", .text w.stop),
    ("days", .array (w.days.map Weekday.toJson)), ("deny", .bool w.deny)]

end WindowRule

namespace EligibilityPlan

def problems (p : EligibilityPlan) : Problems :=
  .demand (p.name ≠ "") "name" (.text "Policy name cannot be empty")

def check (p : EligibilityPlan) : Except Fault Unit := do
  p.problems.check
  match p.window with
  | some w => w.problems.check
  | none => pure ()

def assembly (p : EligibilityPlan) : Assembly :=
  let a := if p.rules.isEmpty then Assembly.ofLevel p.name p.level
    else ((Assembly.empty p.name).withProfile p.level.profile).addRules p.rules
  a.withMode p.mode

def build (p : EligibilityPlan) : Except Fault EligibilityPolicy := do
  p.check
  if p.level = .custom ∧ p.rules.isEmpty then
    .error (.misconfigured (.customWithoutRules p.name))
  match p.window with
  | some w => do
    let r ← w.build
    (p.assembly.addCondition (.rule (.restriction r))).build
  | none => p.assembly.build

def ofJson? (j : Json) : Option EligibilityPlan :=
  match j.record? ["name", "level", "rules", "mode", "time_window"] 5 with
  | some [name, level, rules, mode, window] => do
    pure {
      name := ← Json.field? Json.text? name
      level := ← Json.fieldOr? .standard Json.name? level
      rules := ← Json.fieldOr? [] (Json.list? Json.name?) rules
      mode := ← Json.fieldOr? .all Json.name? mode
      window := ← Json.optional? WindowRule.ofJson? window }
  | _ => none

def toJson (p : EligibilityPlan) : Json :=
  .record [("name", .text p.name), ("level", Named.toJson p.level),
    ("rules", .array (p.rules.map Named.toJson)), ("mode", Named.toJson p.mode),
    ("time_window", Json.option WindowRule.toJson p.window)]

def read (s : String) : Except Fault EligibilityPlan :=
  match Json.read s >>= ofJson? with
  | some p => do
    p.check
    pure p
  | none => .error .unreadable

end EligibilityPlan
end ClubBooking
