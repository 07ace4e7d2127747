import TickerWatch.Feed

namespace TickerWatch

structure Frame where
  name : String
  data : String

def Frame.text (f : Frame) : String := "event: " ++ f.name ++ "\ndata: " ++ f.data ++ "\n\n"

def Event.frame (e : Event) : Frame := ⟨e.name, e.toValue.render⟩

def Feed.Reading.frame : Feed.Reading → Frame
  | .event e => e.frame
  | .lagged missed => ⟨"ping", "lagged " ++ toString missed⟩

def keepAliveText : String := ": keep-alive\n\n"

def keepAliveAfter : Nat := 20000

structure FrameStream where
  place : Feed.Place
  quietSince : Nat

namespace FrameStream

def opening (f : Feed) (now : Nat) : FrameStream := ⟨f.join, now⟩

def read (s : FrameStream) (f : Feed) (limit now : Nat) : String × FrameStream :=
  match f.readUpTo limit s.place with
  | ([], place) =>
    if 0 < limit && s.quietSince + keepAliveAfter ≤ now then (keepAliveText, ⟨place, now⟩)
    else ("", s)
  | (readings, place) => (String.join (readings.map fun r => r.frame.text), ⟨place, now⟩)

end FrameStream

end TickerWatch
