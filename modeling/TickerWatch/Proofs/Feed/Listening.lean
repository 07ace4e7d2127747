import Mathlib.Algebra.Group.Action.Defs
import Mathlib.Algebra.Order.BigOperators.Group.List
import Mathlib.Algebra.Order.Ring.Nat
import TickerWatch.Feed.Frame

namespace TickerWatch

theorem Event.name_ne_ping (e : Event) : e.name ≠ "ping" := by
  cases e with
  | triggered n =>
    show "alertTriggered" ≠ "ping"
    decide
  | updated => decide

namespace Feed

def waiting (f : Feed) (p : Place) : List Event := f.sent.drop p

def Reading.weight : Reading → Nat
  | .event _ => 1
  | .lagged missed => missed

structure Hearing where
  waiting : List Event
  reading : Reading

def hearings (f : Feed) : (limit : Nat) → Place → List Hearing
  | 0, _ => []
  | limit + 1, p =>
    match f.read? p with
    | none => []
    | some (r, q) => ⟨f.waiting p, r⟩ :: f.hearings limit q

namespace Hearing

def told? (h : Hearing) : Option Event :=
  match h.reading with
  | .event e => some e
  | .lagged _ => none

def missed (h : Hearing) : Nat :=
  match h.reading with
  | .event _ => 0
  | .lagged missed => missed

def covered (h : Hearing) : List Event := h.waiting.take h.reading.weight

/-- While no more events wait than there is room for, the oldest of them is read. Of more, a note of
lag skips the oldest, so that as many stay as there is room for. -/
def Sound (room : Nat) (h : Hearing) : Prop :=
  match h.reading with
  | .event e =>
    h.reading.frame = e.frame ∧ e.frame.name ≠ "ping" ∧ h.waiting.head? = some e ∧
      h.waiting.length ≤ room
  | .lagged missed =>
    h.reading.frame = ⟨"ping", "lagged " ++ toString missed⟩ ∧ room < h.waiting.length ∧
      missed + room = h.waiting.length

variable {room : Nat} {h : Hearing} {hs : List Hearing}

theorem Sound.told_sublist (sound : h.Sound room) : h.told?.toList.Sublist h.covered := by
  obtain ⟨waiting, reading⟩ := h
  cases reading with
  | event e =>
    obtain ⟨-, -, oldest, -⟩ := sound
    obtain ⟨later, rfl⟩ := List.head?_eq_some_iff.mp oldest
    simp [told?, covered, Reading.weight]
  | lagged n => exact List.nil_sublist _

theorem Sound.length_covered (sound : h.Sound room) :
    h.told?.toList.length + h.missed = h.covered.length := by
  obtain ⟨waiting, reading⟩ := h
  cases reading with
  | event e =>
    obtain ⟨-, -, oldest, -⟩ := sound
    obtain ⟨later, rfl⟩ := List.head?_eq_some_iff.mp oldest
    simp [told?, covered, missed, Reading.weight]
  | lagged n =>
    obtain ⟨-, -, rest⟩ := sound
    have fewer : n ≤ waiting.length := Nat.le.intro rest
    simp [told?, covered, missed, Reading.weight, fewer]

theorem told_sublist_covered (sound : ∀ h ∈ hs, h.Sound room) :
    (hs.filterMap told?).Sublist (hs.flatMap covered) := by
  induction hs with
  | nil => exact List.nil_sublist _
  | cons h hs ih =>
    have first := (sound h List.mem_cons_self).told_sublist
    have rest := ih fun g member => sound g (List.mem_cons_of_mem h member)
    rw [List.filterMap_cons, List.flatMap_cons]
    cases told : h.told? with
    | none => exact rest.trans (List.sublist_append_right _ _)
    | some e =>
      rw [told] at first
      exact first.append rest

theorem length_covered (sound : ∀ h ∈ hs, h.Sound room) :
    (hs.filterMap told?).length + (hs.map missed).sum = (hs.flatMap covered).length := by
  induction hs with
  | nil => rfl
  | cons h hs ih =>
    have first := (sound h List.mem_cons_self).length_covered
    have rest := ih fun g member => sound g (List.mem_cons_of_mem h member)
    rw [List.filterMap_cons, List.map_cons, List.flatMap_cons, List.sum_cons, List.length_append]
    rw [← first, ← rest]
    cases h.told? with
    | none => simp; omega
    | some e => simp; omega

end Hearing

variable {f : Feed} {p q limit : Nat} {r : Reading}

theorem length_waiting : (f.waiting p).length = f.sent.length - p := List.length_drop

theorem waiting_join : f.waiting f.join = [] := List.drop_length

theorem waiting_send (e : Event) (within : p ≤ f.sent.length) :
    (f.send e).waiting p = f.waiting p ++ [e] :=
  List.drop_append_of_le_length within

theorem take_waiting (n : Nat) : (f.waiting p).take n ++ f.waiting (p + n) = f.waiting p := by
  rw [waiting, waiting, ← List.drop_drop, List.take_append_drop]

theorem read?_lagged (overrun : f.room < (f.waiting p).length) :
    f.read? p =
      some (.lagged ((f.waiting p).length - f.room), p + ((f.waiting p).length - f.room)) := by
  have missed : 0 < f.pending p - f.room := by
    rw [length_waiting] at overrun
    exact Nat.sub_pos_of_lt overrun
  rw [length_waiting]
  exact if_pos missed

theorem read?_event (fits : (f.waiting p).length ≤ f.room) :
    f.read? p = (f.waiting p).head?.map fun e => (.event e, p + 1) := by
  have missed : ¬ 0 < f.pending p - f.room := by
    rw [length_waiting] at fits
    exact Nat.not_lt.mpr (Nat.sub_eq_zero_of_le fits).le
  rw [waiting, List.head?_drop]
  exact if_neg missed

theorem read?_eq_none : f.read? p = none ↔ f.waiting p = [] := by
  rcases Nat.lt_or_ge f.room (f.waiting p).length with overrun | fits
  · rw [read?_lagged overrun]
    simp [List.ne_nil_of_length_pos (Nat.zero_lt_of_lt overrun)]
  · rw [read?_event fits]
    simp

theorem read?_sound (read : f.read? p = some (r, q)) :
    (Hearing.mk (f.waiting p) r).Sound f.room ∧ q = p + r.weight ∧ q ≤ f.sent.length := by
  have count := f.length_waiting (p := p)
  rcases Nat.lt_or_ge f.room (f.waiting p).length with overrun | fits
  · rw [read?_lagged overrun] at read
    cases read
    exact ⟨⟨rfl, overrun, Nat.sub_add_cancel overrun.le⟩, rfl, by omega⟩
  · rw [read?_event fits] at read
    obtain ⟨e, oldest, same⟩ := Option.map_eq_some_iff.mp read
    cases same
    obtain ⟨later, held⟩ := List.head?_eq_some_iff.mp oldest
    rw [held, List.length_cons] at count
    exact ⟨⟨rfl, e.name_ne_ping, oldest, fits⟩, rfl, by omega⟩

theorem readUpTo_readings (f : Feed) (limit p : Nat) :
    (f.readUpTo limit p).1 = (f.hearings limit p).map Hearing.reading := by
  induction limit generalizing p with
  | zero => rfl
  | succ limit ih =>
    unfold readUpTo hearings
    cases f.read? p with
    | none => rfl
    | some next => exact congrArg (next.1 :: ·) (ih next.2)

/-- Whatever is read, nothing of what was waiting is lost. -/
theorem readUpTo_waiting (f : Feed) (limit p : Nat) (within : p ≤ f.sent.length) :
    (f.readUpTo limit p).2 ≤ f.sent.length ∧
      (f.hearings limit p).flatMap Hearing.covered ++ f.waiting (f.readUpTo limit p).2 =
        f.waiting p ∧
      ∀ h ∈ f.hearings limit p, h.Sound f.room := by
  induction limit generalizing p with
  | zero => exact ⟨within, rfl, by simp [hearings]⟩
  | succ limit ih =>
    unfold readUpTo hearings
    cases read : f.read? p with
    | none => exact ⟨within, rfl, by simp⟩
    | some next =>
      obtain ⟨r, q⟩ := next
      obtain ⟨sound, rfl, reached⟩ := read?_sound read
      obtain ⟨end_, kept, sounds⟩ := ih _ reached
      refine ⟨end_, ?_, ?_⟩
      · rw [List.flatMap_cons, List.append_assoc, kept]
        exact take_waiting r.weight
      · rintro h (_ | ⟨_, member⟩)
        · exact sound
        · exact sounds h member

end Feed

open Feed

inductive Sign where
  | frame (h : Hearing)
  | keepAlive

namespace Sign

def text : Sign → String
  | frame h => h.reading.frame.text
  | keepAlive => keepAliveText

def hearing? : Sign → Option Hearing
  | frame h => some h
  | keepAlive => none

theorem filterMap_frames (hs : List Hearing) : (hs.map frame).filterMap hearing? = hs := by
  rw [List.filterMap_map]
  exact List.filterMap_some

end Sign

namespace FrameStream

variable (s : FrameStream) (f : Feed) (limit now : Nat)

def signs : List Sign :=
  match f.hearings limit s.place with
  | [] => if 0 < limit && s.quietSince + keepAliveAfter ≤ now then [.keepAlive] else []
  | hs => hs.map .frame

theorem signs_hearings :
    (s.signs f limit now).filterMap Sign.hearing? = f.hearings limit s.place := by
  unfold signs
  split
  · rename_i quiet
    rw [quiet]
    split <;> rfl
  · exact Sign.filterMap_frames _

theorem readUpTo_quiet {p : Nat} (quiet : f.hearings limit p = []) :
    f.readUpTo limit p = ([], p) := by
  cases limit with
  | zero => rfl
  | succ limit =>
    unfold Feed.hearings at quiet
    unfold Feed.readUpTo
    cases read : f.read? p with
    | none => rfl
    | some next =>
      rw [read] at quiet
      cases quiet

theorem read_signs :
    (s.read f limit now).1 = String.join ((s.signs f limit now).map Sign.text) ∧
      (s.read f limit now).2.place = (f.readUpTo limit s.place).2 := by
  have readings := f.readUpTo_readings limit s.place
  unfold read signs
  cases heard : f.hearings limit s.place with
  | nil =>
    rw [readUpTo_quiet f limit heard]
    dsimp only
    split
    · exact ⟨by simp [Sign.text], rfl⟩
    · exact ⟨String.join_nil.symm, rfl⟩
  | cons h hs =>
    rw [heard] at readings
    rcases all : f.readUpTo limit s.place with ⟨rs, place⟩
    rw [all] at readings
    subst readings
    refine ⟨?_, rfl⟩
    simp only [List.map_cons, List.map_map]
    rfl

end FrameStream

inductive Turn where
  | send (e : Event)
  | read (limit now : Nat)

def Turn.event? : Turn → Option Event
  | send e => some e
  | read _ _ => none

structure Listener where
  feed : Feed
  stream : FrameStream
  received : String := ""
  signs : List Sign := []

namespace Listener

def joining (f : Feed) (now : Nat) : Listener where
  feed := f
  stream := .opening f now

def turn (l : Listener) : Turn → Listener
  | .send e => { l with feed := l.feed.send e }
  | .read limit now =>
    let (text, stream) := l.stream.read l.feed limit now
    { l with
      stream
      received := l.received ++ text
      signs := l.signs ++ l.stream.signs l.feed limit now }

def follow (l : Listener) (turns : List Turn) : Listener := turns.foldl turn l

def hearings (l : Listener) : List Hearing := l.signs.filterMap Sign.hearing?

def told (l : Listener) : List Event := l.hearings.filterMap Hearing.told?

def missed (l : Listener) : Nat := (l.hearings.map Hearing.missed).sum

def waiting (l : Listener) : List Event := l.feed.waiting l.stream.place

/-- Nothing of what was sent is unaccounted for. -/
structure Accounts (room : Nat) (sent : List Event) (l : Listener) : Prop where
  fixed : l.feed.room = room
  within : l.stream.place ≤ l.feed.sent.length
  text : l.received = String.join (l.signs.map Sign.text)
  covered : l.hearings.flatMap Hearing.covered ++ l.waiting = sent
  sound : ∀ h ∈ l.hearings, h.Sound room

variable {room : Nat} {sent : List Event} {l : Listener}

theorem joining_accounts (f : Feed) (now : Nat) : Accounts f.room [] (joining f now) where
  fixed := rfl
  within := Nat.le_refl _
  text := String.join_nil.symm
  covered := waiting_join
  sound := by simp [hearings, joining]

theorem Accounts.turn (accounts : l.Accounts room sent) (t : Turn) :
    (l.turn t).Accounts room (sent ++ t.event?.toList) := by
  cases t with
  | send e =>
    refine ⟨accounts.fixed, ?_, accounts.text, ?_, accounts.sound⟩
    · exact accounts.within.trans (by simp [Listener.turn, Feed.send])
    · have grown := waiting_send e accounts.within
      have covered := accounts.covered
      simp only [Listener.waiting] at covered
      simp only [Listener.turn, Listener.waiting, Listener.hearings, Turn.event?,
        Option.toList_some, grown, ← List.append_assoc]
      exact congrArg (· ++ [e]) covered
  | read limit now =>
    obtain ⟨text, place⟩ := l.stream.read_signs l.feed limit now
    obtain ⟨reached, kept, sounds⟩ := readUpTo_waiting l.feed limit l.stream.place accounts.within
    have heard : (l.turn (.read limit now)).hearings =
        l.hearings ++ l.feed.hearings limit l.stream.place := by
      simp [Listener.hearings, Listener.turn, FrameStream.signs_hearings]
    refine ⟨accounts.fixed, ?_, ?_, ?_, ?_⟩
    · exact place ▸ reached
    · simp [Listener.turn, accounts.text, text, String.join_append]
    · have left : (l.turn (.read limit now)).waiting =
          l.feed.waiting (l.feed.readUpTo limit l.stream.place).2 := congrArg l.feed.waiting place
      rw [heard, left, List.flatMap_append, List.append_assoc, kept, accounts.covered.symm]
      exact (List.append_nil _).symm
    · rw [heard]
      intro h member
      rcases List.mem_append.mp member with before | now
      · exact accounts.sound h before
      · exact accounts.fixed ▸ sounds h now

theorem Accounts.follow (accounts : l.Accounts room sent) (turns : List Turn) :
    (l.follow turns).Accounts room (sent ++ turns.filterMap Turn.event?) := by
  induction turns generalizing l sent with
  | nil => simpa [Listener.follow] using accounts
  | cons t turns ih =>
    have rest := ih (accounts.turn t)
    rw [List.append_assoc] at rest
    have events : (t :: turns).filterMap Turn.event? =
        t.event?.toList ++ turns.filterMap Turn.event? := by
      cases t <;> rfl
    rw [events]
    exact rest

/-- After any events and reads, the events told of, the events noted as missed and the events that
wait are those that were sent since the listener joined, each of them once and in order. A note of
lag is given only when more events wait than there is room for, and skips the oldest. -/
theorem nothing_lost_silently (f : Feed) (opened : Nat) (turns : List Turn) :
    let l := (joining f opened).follow turns
    let sent := turns.filterMap Turn.event?
    l.received = String.join (l.signs.map Sign.text) ∧
      l.hearings.flatMap Hearing.covered ++ l.waiting = sent ∧
      l.told.Sublist sent ∧
      l.told.length + l.missed + l.waiting.length = sent.length ∧
      (∀ h ∈ l.hearings, h.Sound f.room) ∧
      (l.feed.read? l.stream.place = none ↔ l.waiting = []) := by
  intro l sent
  have accounts : l.Accounts f.room sent := (joining_accounts f opened).follow turns
  have told := Hearing.told_sublist_covered accounts.sound
  have count := Hearing.length_covered accounts.sound
  have whole := congrArg List.length accounts.covered
  rw [List.length_append] at whole
  refine ⟨accounts.text, accounts.covered, ?_, ?_, accounts.sound, read?_eq_none⟩
  · rw [← accounts.covered]
    exact told.trans (List.sublist_append_left _ _)
  · rw [← whole, ← count]
    rfl

def bursts : List Turn :=
  List.replicate 5 (.send .updated) ++ [.read 1 0, .send .updated, .read 5 0, .read 1 20000]

theorem bursts_accounted :
    ∃ h ∈ ((joining ⟨2, [.updated]⟩ 0).follow bursts).hearings,
      h.missed = 3 ∧ h.waiting.length = 5 ∧ h.Sound (Feed.mk 2 [.updated]).room ∧
        ((joining ⟨2, [.updated]⟩ 0).follow bursts).told.length = 2 ∧
        ((joining ⟨2, [.updated]⟩ 0).follow bursts).told.length +
          ((joining ⟨2, [.updated]⟩ 0).follow bursts).missed +
          ((joining ⟨2, [.updated]⟩ 0).follow bursts).waiting.length = 6 := by
  have log : (((joining ⟨2, [.updated]⟩ 0).follow bursts).hearings.map fun h =>
      (h.missed, h.waiting.length)) = [(3, 5), (1, 3), (0, 2), (0, 1)] := by decide +kernel
  have told : ((joining ⟨2, [.updated]⟩ 0).follow bursts).told.length = 2 := by decide +kernel
  obtain ⟨-, -, -, count, sound, -⟩ := nothing_lost_silently ⟨2, [.updated]⟩ 0 bursts
  obtain ⟨h, rest, heard, first, -⟩ := List.map_eq_cons_iff.mp log
  obtain ⟨missed, waits⟩ := Prod.mk.inj first
  have member : h ∈ ((joining ⟨2, [.updated]⟩ 0).follow bursts).hearings := by simp [heard]
  exact ⟨h, member, missed, waits, sound h member, told, count⟩

end Listener

end TickerWatch
