import TickerWatch.Proofs.Feed.Listening
import TickerWatch.Proofs.Json.Skipped

namespace TickerWatch

namespace EventStream

/-- The lines of a stream. A line ends with a line feed, a carriage return, or a line feed after a
carriage return, and what comes after the last end is no line yet. `line` holds the characters read
of a line, the last one first. -/
def lines : (line : List Char) → List Char → List (List Char)
  | _, [] => []
  | line, '\r' :: '\n' :: cs => line.reverse :: lines [] cs
  | line, '\r' :: cs => line.reverse :: lines [] cs
  | line, '\n' :: cs => line.reverse :: lines [] cs
  | line, c :: cs => lines (c :: line) cs

structure Draft where
  name : List Char := []
  data : List (List Char) := []

def splitField (line : List Char) : List Char × List Char :=
  match line.span (· ≠ ':') with
  | (field, ':' :: ' ' :: value) => (field, value)
  | (field, ':' :: value) => (field, value)
  | (field, _) => (field, [])

def Draft.add (d : Draft) (line : List Char) : Draft :=
  let (field, value) := splitField line
  if field = ['e', 'v', 'e', 'n', 't'] then { d with name := value }
  else if field = ['d', 'a', 't', 'a'] then { d with data := d.data ++ [value] }
  else d

def Draft.frame? (d : Draft) : Option Frame :=
  if d.data.isEmpty then none
  else
    some
      { name := if d.name.isEmpty then "message" else String.ofList d.name
        data := String.ofList (['\n'].intercalate d.data) }

def frames : Draft → List (List Char) → List Frame
  | _, [] => []
  | d, [] :: ls => d.frame?.toList ++ frames {} ls
  | d, line :: ls => frames (d.add line) ls

def read (s : String) : List Frame := frames {} (lines [] s.toList)

def Plain (cs : List Char) : Prop := ∀ c ∈ cs, c ≠ '\n' ∧ c ≠ '\r'

instance : DecidablePred Plain := List.decidableBAll fun c => c ≠ '\n' ∧ c ≠ '\r'

variable {line rest : List Char}

theorem plain_of_graphic (graphic : Json.Graphic line) : Plain line := by
  intro c member
  constructor <;> rintro rfl <;> exact graphic _ member (by decide)

theorem lines_plain (plain : Plain line) (done : List Char) :
    lines done (line ++ '\n' :: rest) = (done.reverse ++ line) :: lines [] rest := by
  induction line generalizing done with
  | nil => simp [lines]
  | cons c line ih =>
    obtain ⟨⟨feed, back⟩, others⟩ := List.forall_mem_cons.mp plain
    have step : lines done (c :: (line ++ '\n' :: rest)) =
        lines (c :: done) (line ++ '\n' :: rest) := by
      rw [lines]
      · exact fun _ same _ => back same
      · exact back
      · exact feed
    rw [List.cons_append, step, ih others]
    simp

/-- A frame that cannot be taken apart in another way than it was put together. -/
structure Sendable (f : Frame) : Prop where
  named : f.name ≠ ""
  name : Plain f.name.toList
  data : Plain f.data.toList

def written (f : Frame) : String :=
  "event: " ++ f.name ++ "\n" ++
    String.join ((f.data.toList.splitOn '\n').map fun line =>
      "data: " ++ String.ofList line ++ "\n") ++ "\n"

variable {f : Frame}

theorem Plain.append {more : List Char} (first : Plain line) (second : Plain more) :
    Plain (line ++ more) :=
  fun c member => (List.mem_append.mp member).elim (first c) (second c)

theorem plain_nil : Plain [] := nofun

theorem Sendable.written (sendable : Sendable f) : written f = f.text := by
  have whole : f.data.toList.splitOn '\n' = [f.data.toList] :=
    List.splitOn_eq_singleton fun member => (sendable.data _ member).1 rfl
  apply String.toList_inj.mp
  simp [EventStream.written, whole, Frame.text]

theorem Sendable.lines (sendable : Sendable f) :
    lines [] (f.text.toList ++ rest) =
      ("event: ".toList ++ f.name.toList) :: ("data: ".toList ++ f.data.toList) :: [] ::
        lines [] rest := by
  have name : Plain ("event: ".toList ++ f.name.toList) :=
    .append (by decide) sendable.name
  have data : Plain ("data: ".toList ++ f.data.toList) :=
    .append (by decide) sendable.data
  have split : f.text.toList ++ rest =
      ("event: ".toList ++ f.name.toList) ++ '\n' ::
        (("data: ".toList ++ f.data.toList) ++ '\n' :: ([] ++ '\n' :: rest)) := by
    simp [Frame.text]
  rw [split, lines_plain name, lines_plain data, lines_plain plain_nil]
  rfl

theorem Sendable.frames (sendable : Sendable f) (ls : List (List Char)) :
    frames {} (("event: ".toList ++ f.name.toList) :: ("data: ".toList ++ f.data.toList) :: [] ::
      ls) = f :: frames {} ls := by
  obtain ⟨name, data⟩ := f
  have named : name.toList.isEmpty = false := by
    simpa [String.toList_eq_nil_iff] using sendable.named
  have complete : Draft.frame? ⟨name.toList, [data.toList]⟩ = some ⟨name, data⟩ := by
    simp [Draft.frame?, named]
  show Option.toList (Draft.frame? ⟨name.toList, [data.toList]⟩) ++ EventStream.frames {} ls = _
  rw [complete]
  rfl

theorem frames_keepAlive :
    frames {} (lines [] (keepAliveText.toList ++ rest)) = frames {} (lines [] rest) := by
  have split : keepAliveText.toList ++ rest =
      ": keep-alive".toList ++ '\n' :: ([] ++ '\n' :: rest) := by
    simp [keepAliveText]
  rw [split, lines_plain (by decide), lines_plain plain_nil]
  rfl

theorem sendable_event (e : Event) : Sendable e.frame := by
  have data : Plain e.frame.data.toList := by
    show Plain (String.ofList e.toValue.write).toList
    rw [String.toList_ofList]
    exact plain_of_graphic e.toValue.write_graphic
  cases e with
  | triggered n =>
    have name : Plain "alertTriggered".toList := by decide
    exact ⟨(by decide : "alertTriggered" ≠ ""), name, data⟩
  | updated =>
    have name : Plain "alertsUpdated".toList := by decide
    exact ⟨(by decide : "alertsUpdated" ≠ ""), name, data⟩

theorem sendable_reading (r : Feed.Reading) : Sendable r.frame := by
  cases r with
  | event e => exact sendable_event e
  | lagged missed =>
    have name : Plain "ping".toList := by decide
    have count : Plain (toString missed).toList := by
      apply plain_of_graphic
      show Json.Graphic missed.repr.toList
      rw [Nat.toList_repr]
      exact Json.digits_graphic (Decimal.areDigits_toDigits missed).2
    refine ⟨(by decide : "ping" ≠ ""), name, ?_⟩
    show Plain ("lagged " ++ toString missed).toList
    rw [String.toList_append]
    exact .append (by decide) count

theorem frames_sign (s : Sign) :
    frames {} (lines [] (s.text.toList ++ rest)) =
      (s.hearing?.map fun h => h.reading.frame).toList ++ frames {} (lines [] rest) := by
  cases s with
  | frame h =>
    have sendable := sendable_reading h.reading
    show frames {} (lines [] (h.reading.frame.text.toList ++ rest)) = _
    rw [sendable.lines, sendable.frames]
    rfl
  | keepAlive => exact frames_keepAlive

theorem read_signs (signs : List Sign) :
    read (String.join (signs.map Sign.text)) =
      signs.filterMap fun s => s.hearing?.map fun h => h.reading.frame := by
  unfold read
  induction signs with
  | nil => rfl
  | cons s signs ih =>
    rw [List.map_cons, String.join_cons, String.toList_append, frames_sign, ih, List.filterMap_cons]
    cases s.hearing? <;> rfl

/-- A blank line among the data would complete the frame too early. -/
example : (read (Frame.text ⟨"a", "x\n\ndata: y"⟩)).map Frame.data = ["x", "y"] := by
  decide +kernel

end EventStream

structure Wording where
  alertId : String
  code : String
  name : String
  alertType : String
  message : String

def Notification.wording (n : Notification) : Wording :=
  ⟨n.alertId.text, n.code, n.name, n.alertType, n.message⟩

def Event.wording : Event → String × Option Wording
  | triggered n => ("alertTriggered", some n.wording)
  | updated => ("alertsUpdated", none)

open Json

namespace Wording

def fields : Fields [String, String, String, String, String] :=
  .cons "alert_id" text required <|
  .cons "code" text required <|
  .cons "name" text required <|
  .cons "alert_type" text required <|
  .cons "message" text required .nil

def decoder : Decoder Wording :=
  (record "AlertNotification" fields).map fun (alertId, code, name, alertType, message, ()) =>
    { alertId, code, name, alertType, message }

end Wording

namespace Event

def fields : Fields [String, Option Wording] :=
  .cons "type" text required <|
  .cons "data" (Wording.decoder.map some) (byDefault none) .nil

def wordingDecoder : Decoder (String × Option Wording) :=
  (record "AlertEvent" fields).map fun (kind, wording, ()) => (kind, wording)

end Event

theorem Notification.wording_answers (n : Notification) :
    Wording.decoder.Answers n.toValue (some n.wording) := by
  have filled : Fills (Wording.fields.member false) Wording.fields.empty
      [("alert_id", .text n.alertId.text), ("code", .text n.code), ("name", .text n.name),
        ("alert_type", .text n.alertType), ("trigger_price", .real n.triggerPrice),
        ("change_percent", .real n.changePercent), ("message", .text n.message),
        ("triggered_at", .integer n.triggeredAt), ("enable_sound", .flag n.enableSound),
        ("enable_desktop", .flag n.enableDesktop)]
      (some (some n.alertId.text, some n.code, some n.name, some n.alertType, some n.message,
        ())) := by
    refine ⟨_, _, rfl, (text_answers _).map _, .inr ⟨_, rfl, ?_⟩⟩
    refine ⟨_, _, rfl, ((text_answers _).map _).map _, .inr ⟨_, rfl, ?_⟩⟩
    refine ⟨_, _, rfl, (((text_answers _).map _).map _).map _, .inr ⟨_, rfl, ?_⟩⟩
    refine ⟨_, _, rfl, ((((text_answers _).map _).map _).map _).map _, .inr ⟨_, rfl, ?_⟩⟩
    refine ⟨_, _, rfl, (ignored_real _).map _, .inr ⟨_, rfl, ?_⟩⟩
    refine ⟨_, _, rfl, (ignored_real _).map _, .inr ⟨_, rfl, ?_⟩⟩
    refine ⟨_, _, rfl, (((((text_answers _).map _).map _).map _).map _).map _,
      .inr ⟨_, rfl, ?_⟩⟩
    refine ⟨_, _, rfl, (ignored_integer _).map _, .inr ⟨_, rfl, ?_⟩⟩
    refine ⟨_, _, rfl, (ignored_flag _).map _, .inr ⟨_, rfl, ?_⟩⟩
    exact ⟨_, _, rfl, (ignored_flag _).map _, .inr ⟨_, rfl, rfl⟩⟩
  exact (record_answers "AlertNotification" filled).map _

theorem Event.wording_answers (e : Event) : wordingDecoder.Answers e.toValue (some e.wording) := by
  cases e with
  | triggered n =>
    have filled : Fills (fields.member false) fields.empty
        [("type", .text "alertTriggered"), ("data", n.toValue)]
        (some (some "alertTriggered", some (some n.wording), ())) := by
      refine ⟨_, _, rfl, (text_answers _).map _, .inr ⟨_, rfl, ?_⟩⟩
      exact ⟨_, _, rfl, ((n.wording_answers.map _).map _).map _, .inr ⟨_, rfl, rfl⟩⟩
    exact (record_answers "AlertEvent" filled).map _
  | updated =>
    have filled : Fills (fields.member false) fields.empty [("type", .text "alertsUpdated")]
        (some (some "alertsUpdated", none, ())) :=
      ⟨_, _, rfl, (text_answers _).map _, .inr ⟨_, rfl, rfl⟩⟩
    exact (record_answers "AlertEvent" filled).map _

namespace EventStream

theorem read_events (es : List Event) :
    read (String.join (es.map fun e => e.frame.text)) = es.map Event.frame := by
  have all := read_signs (es.map fun e => .frame ⟨[], .event e⟩)
  rw [List.map_map, List.filterMap_map] at all
  refine all.trans ?_
  rw [← List.filterMap_eq_map]
  rfl

theorem read_received (f : Feed) (opened : Nat) (turns : List Turn) :
    read ((Listener.joining f opened).follow turns).received =
      ((Listener.joining f opened).follow turns).hearings.map fun h => h.reading.frame := by
  have accounts := (Listener.joining_accounts f opened).follow turns
  rw [accounts.text, read_signs, Listener.hearings, List.map_filterMap]

/-- The texts of an event cannot break its frame: it is one line with the name, one line with the
payload and a blank one, and the texts are read from the payload as they were. Frames in a row, in a
stream with notes of lag and signs of life between them as well, are read back one by one. -/
theorem frames_read_back :
    (∀ e : Event,
      written ⟨e.name, e.toValue.render⟩ = e.frame.text ∧
        lines [] e.frame.text.toList =
          ["event: " ++ e.name, "data: " ++ e.toValue.render, ""].map String.toList ∧
        (∀ c ∈ e.toValue.render.toList, c ≠ '\n' ∧ c ≠ '\r') ∧
        readAll Event.wordingDecoder e.toValue.render = .ok e.wording) ∧
    (∀ es : List Event,
      read (String.join (es.map fun e => e.frame.text)) =
        es.map fun e => ⟨e.name, e.toValue.render⟩) ∧
    ∀ (f : Feed) (opened : Nat) (turns : List Turn),
      read ((Listener.joining f opened).follow turns).received =
        ((Listener.joining f opened).follow turns).hearings.map fun h => h.reading.frame := by
  refine ⟨fun e => ?_, read_events, read_received⟩
  have sendable := sendable_event e
  refine ⟨sendable.written, ?_, sendable.data, ok_of_toOption e.wording_answers.readAll⟩
  have split := @Sendable.lines [] _ sendable
  rw [List.append_nil] at split
  rw [split, lines]
  simp only [List.map_cons, List.map_nil, String.toList_append]
  rfl

end EventStream

end TickerWatch
