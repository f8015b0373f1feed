import ClubBooking.Eligibility.CapacityRule
import ClubBooking.Eligibility.MemberRules
import ClubBooking.Eligibility.TimeRules

/-! Conditions on a request: rules and tests put together with and, or and not. Beside its verdict
a condition has the reason it gives where it does not hold, and for both the tests that are asked
on the way, in order: what stands on the right of `and` and `or` is asked only where the left
leaves the verdict open. -/

namespace ClubBooking

inductive Rule where
  | activeMember (r : ActiveMember)
  | privilege (r : Privilege)
  | capacity (r : CapacityRule)
  | bookingTime (r : BookingTime)
  | simultaneous (r : SimultaneousLimit)
  | advance (r : AdvanceLimit)
  | restriction (r : StartRestriction)

namespace Rule

def holds (s : Snapshot) : Rule → Bool
  | activeMember r => r.holds s
  | privilege r => r.holds s
  | capacity r => r.holds s
  | bookingTime r => r.holds s
  | simultaneous r => r.holds s
  | advance r => r.holds s
  | restriction r => r.holds s

def description : Rule → String
  | activeMember r => r.description
  | privilege r => r.description
  | capacity r => r.description
  | bookingTime r => r.description
  | simultaneous r => r.description
  | advance r => r.description
  | restriction r => r.description

def reason? (s : Snapshot) : Rule → Option String
  | activeMember r => r.reason? s
  | privilege r => r.reason? s
  | capacity r => r.reason? s
  | bookingTime r => r.reason? s
  | simultaneous r => r.reason? s
  | advance r => r.reason? s
  | restriction r => r.reason? s

end Rule

inductive Condition where
  | rule (r : Rule)
  | test (description : String) (accepts : Snapshot → Bool)
  | and (left right : Condition)
  | or (left right : Condition)
  | not (inner : Condition)

namespace Condition

def holds (s : Snapshot) : Condition → Bool
  | rule r => r.holds s
  | test _ accepts => accepts s
  | and l r => l.holds s && r.holds s
  | or l r => l.holds s || r.holds s
  | not c => !c.holds s

def description : Condition → String
  | rule r => r.description
  | test d _ => d
  | and l r => "(" ++ l.description ++ ") AND (" ++ r.description ++ ")"
  | or l r => "(" ++ l.description ++ ") OR (" ++ r.description ++ ")"
  | not c => "NOT (" ++ c.description ++ ")"

/-- The reasons there are, joined; none if there are none. -/
def joined (separator : String) : Option String → Option String → Option String
  | some l, some r => some (l ++ separator ++ r)
  | some l, none => some l
  | none, r => r

def reason? (s : Snapshot) : Condition → Option String
  | rule r => r.reason? s
  | test d accepts => if accepts s then none else some ("Rule not satisfied: " ++ d)
  | and l r => joined "; " (l.reason? s) (r.reason? s)
  | or l r =>
    if l.holds s || r.holds s then none
    else (joined " and " (l.reason? s) (r.reason? s)).or
      (some ("Rule not satisfied: " ++ (or l r).description))
  | not c => if c.holds s then some ("Expected not to hold: " ++ c.description) else none

/-- The tests asked for the verdict. -/
def asked (s : Snapshot) : Condition → List String
  | rule _ => []
  | test d _ => [d]
  | and l r => l.asked s ++ if l.holds s then r.asked s else []
  | or l r => l.asked s ++ if l.holds s then [] else r.asked s
  | not c => c.asked s

def reasonAsked (s : Snapshot) : Condition → List String
  | rule _ => []
  | test d _ => [d]
  | and l r => l.reasonAsked s ++ r.reasonAsked s
  | or l r =>
    (or l r).asked s ++
      if l.holds s || r.holds s then [] else l.reasonAsked s ++ r.reasonAsked s
  | not c => c.asked s

/-- All of several conditions, the first two put together first. -/
def allOf : List Condition → Except Fault Condition
  | [] => .error (.emptyList "specification chain")
  | c :: cs => .ok (cs.foldl and c)

def anyOf : List Condition → Except Fault Condition
  | [] => .error (.emptyList "specification chain")
  | c :: cs => .ok (cs.foldl or c)

theorem holds_foldl_and (s : Snapshot) (cs : List Condition) (c : Condition) :
    (cs.foldl and c).holds s = (c.holds s && cs.all (holds s)) := by
  induction cs generalizing c with
  | nil => simp
  | cons d ds ih => rw [List.foldl_cons, ih, holds, List.all_cons, Bool.and_assoc]

theorem holds_foldl_or (s : Snapshot) (cs : List Condition) (c : Condition) :
    (cs.foldl or c).holds s = (c.holds s || cs.any (holds s)) := by
  induction cs generalizing c with
  | nil => simp
  | cons d ds ih => rw [List.foldl_cons, ih, holds, List.any_cons, Bool.or_assoc]

theorem holds_allOf {s : Snapshot} {cs : List Condition} {c : Condition} (h : allOf cs = .ok c) :
    c.holds s = cs.all (holds s) := by
  cases cs with
  | nil => cases h
  | cons d ds => cases h; exact holds_foldl_and s ds d

theorem holds_anyOf {s : Snapshot} {cs : List Condition} {c : Condition} (h : anyOf cs = .ok c) :
    c.holds s = cs.any (holds s) := by
  cases cs with
  | nil => cases h
  | cons d ds => cases h; exact holds_foldl_or s ds d

end Condition
end ClubBooking
