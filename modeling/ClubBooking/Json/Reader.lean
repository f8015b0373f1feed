import ClubBooking.Json.Token

/-! Reading a document from its tokens. The open arrays and objects lie on a stack, and one token
after the other is taken in: what may come next is all that has to be remembered beside them. -/

namespace ClubBooking.Json

/-- An open array or object with the items it has so far, the last one first. -/
inductive Frame where
  | array (items : List Json)
  | object (members : List (Option String × Json)) (key : Option String)

inductive Awaiting where
  | value
  | valueOrEnd
  | key (members : List (Option String × Json))
  | keyOrEnd
  | colon (members : List (Option String × Json)) (key : Option String)
  | more
  | nothing (result : Json)

structure Reading where
  stack : List Frame
  awaiting : Awaiting

namespace Reading

def start : Reading := ⟨[], .value⟩

def close (j : Json) : List Frame → Reading
  | [] => ⟨[], .nothing j⟩
  | .array items :: stack => ⟨.array (j :: items) :: stack, .more⟩
  | .object members key :: stack => ⟨.object ((key, j) :: members) none :: stack, .more⟩

def beginValue (stack : List Frame) : Token → Option Reading
  | .leftBrace => some ⟨stack, .keyOrEnd⟩
  | .leftBracket => some ⟨.array [] :: stack, .valueOrEnd⟩
  | .null => some (close .null stack)
  | .bool b => some (close (.bool b) stack)
  | .number n => some (close (.number n) stack)
  | .string s => some (close (.string s) stack)
  | _ => none

def step (r : Reading) (t : Token) : Option Reading :=
  match r.awaiting, r.stack, t with
  | .value, stack, t => beginValue stack t
  | .valueOrEnd, .array [] :: stack, .rightBracket => some (close (.array []) stack)
  | .valueOrEnd, stack, t => beginValue stack t
  | .keyOrEnd, stack, .rightBrace => some (close (.object []) stack)
  | .keyOrEnd, stack, .string k => some ⟨stack, .colon [] k⟩
  | .key members, stack, .string k => some ⟨stack, .colon members k⟩
  | .colon members k, stack, .colon => some ⟨.object members k :: stack, .value⟩
  | .more, .array items :: stack, .comma => some ⟨.array items :: stack, .value⟩
  | .more, .array items :: stack, .rightBracket => some (close (.array items.reverse) stack)
  | .more, .object members _ :: stack, .comma => some ⟨stack, .key members⟩
  | .more, .object members _ :: stack, .rightBrace =>
    some (close (.object members.reverse) stack)
  | _, _, _ => none

def run (r : Reading) : List Token → Option Reading
  | [] => some r
  | t :: ts => (r.step t).bind fun r => r.run ts

theorem run_append (r : Reading) (ts us : List Token) :
    r.run (ts ++ us) = (r.run ts).bind fun r => r.run us := by
  induction ts generalizing r with
  | nil => rfl
  | cons t ts ih =>
    simp only [List.cons_append, run]
    cases r.step t with
    | none => rfl
    | some r => exact ih r

end Reading

def ofTokens? (ts : List Token) : Option Json :=
  match Reading.start.run ts with
  | some ⟨[], .nothing j⟩ => some j
  | _ => none

def read (s : String) : Option Json := tokens s.toList >>= ofTokens?

end ClubBooking.Json
