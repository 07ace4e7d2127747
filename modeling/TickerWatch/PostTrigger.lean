import TickerWatch.Text.Blank
import TickerWatch.Text.Case

namespace TickerWatch

inductive PostTrigger where
  | keepActive
  | disable
  | once
  deriving DecidableEq, Repr

namespace PostTrigger

def name : PostTrigger → String
  | keepActive => "continue"
  | disable => "disable"
  | once => "once"

def disables : PostTrigger → Bool
  | keepActive => false
  | disable => true
  | once => true

def known : List (String × PostTrigger) :=
  [("continue", keepActive), ("disable", disable), ("once", once)]

def ofName (s : String) : Except String PostTrigger :=
  let name := Text.lower (Text.trim s)
  match known.lookup name with
  | some p => .ok p
  | none => .error name

end PostTrigger

def unknownAction (name : String) : String := "unknown post-trigger action '" ++ name ++ "'"

end TickerWatch
