import TickerWatch.PostTrigger
import TickerWatch.RecordId
import TickerWatch.Rule.Json

namespace TickerWatch

structure Alert where
  id : RecordId
  code : String
  name : String
  alertType : String
  rule : Rule
  isActive : Bool
  sensitivity : Float
  cooldownHours : Int
  postTrigger : PostTrigger
  enableSound : Bool
  enableDesktop : Bool
  lastTriggeredAt : Option Int
  createdAt : Int
  updatedAt : Int

inductive AlertState where
  | armed
  | cooling
  | disabled
  deriving DecidableEq, Repr

def AlertState.name : AlertState → String
  | armed => "armed"
  | cooling => "cooling"
  | disabled => "disabled"

def secondsPerHour : Int := 3600

/-- The seconds from `since` to `now`, as a number of 64 bits. -/
def elapsed (since now : Int) : Int := Int.bmod (now - since) Int64.size

def cooling (lastTriggeredAt : Option Int) (cooldownHours now : Int) : Bool :=
  match lastTriggeredAt with
  | some since => elapsed since now < cooldownHours * secondsPerHour
  | none => false

def Alert.inCooldown (a : Alert) (now : Int) : Bool :=
  cooling a.lastTriggeredAt a.cooldownHours now

def Alert.state (a : Alert) (now : Int) : AlertState :=
  if !a.isActive then .disabled else if a.inCooldown now then .cooling else .armed

end TickerWatch
