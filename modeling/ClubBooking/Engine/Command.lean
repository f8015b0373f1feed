import ClubBooking.Engine.Basic

/-! What can be asked of an engine, one command after the other. Every command leaves a state, also
one that is refused. -/

namespace ClubBooking

inductive Command where
  | insertPlan (p : Plan)
  | insertMember (m : Member)
  | insertResource (r : Resource)
  | addReservation (r : Reservation)
  | setStatus (id : Identifier) (status : ReservationStatus)
  | check (r : Request)
  /-- Takes the identifier for the reservation it may make. -/
  | reserve (fresh : Identifier) (r : Request)
  | quote (member : Identifier) (price : Money) (date : Date) (coupon : Option String)
deriving DecidableEq

inductive Answer where
  | stored (id : Identifier)
  | updated (r : Reservation)
  | decided (d : Decision)
  | booked (b : Booking)
  | priced (b : Breakdown)
deriving DecidableEq

namespace Engine

/-- The state with a store that was changed, unless the change was refused. -/
def State.replace (st : State) (id : Identifier) : Except Fault Store → Except Fault Answer × State
  | .ok store => (.ok (.stored id), { st with store })
  | .error fault => (.error fault, st)

def perform (e : Engine) (st : State) : Command → Except Fault Answer × State
  | .insertPlan p => st.replace p.id (.ok (st.store.insertPlan p))
  | .insertMember m => st.replace m.id (st.store.insertMember m)
  | .insertResource r => st.replace r.id (.ok (st.store.insertResource r))
  | .addReservation r => st.replace r.id (st.store.addReservation r)
  | .setStatus id status =>
    match st.store.setStatus id status with
    | .ok (r, store) => (.ok (.updated r), { st with store })
    | .error fault => (.error fault, st)
  | .check r => (e.check st r).map (·.map .decided) id
  | .reserve fresh r => (e.reserve st fresh r).map (·.map .booked) id
  | .quote member price date coupon => (e.quote st member price date coupon).map (·.map .priced) id

def run (e : Engine) (st : State) (cs : List Command) : State :=
  cs.foldl (fun st c => (e.perform st c).2) st

theorem run_nil (e : Engine) (st : State) : e.run st [] = st := rfl

theorem run_cons (e : Engine) (st : State) (c : Command) (cs : List Command) :
    e.run st (c :: cs) = e.run (e.perform st c).2 cs := rfl

theorem run_append (e : Engine) (st : State) (cs ds : List Command) :
    e.run st (cs ++ ds) = e.run (e.run st cs) ds := List.foldl_append

end Engine
end ClubBooking
