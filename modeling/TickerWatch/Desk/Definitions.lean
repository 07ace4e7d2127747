import TickerWatch.Desk

namespace TickerWatch

def Alert.define (id : RecordId) (d : Definition) (c : Checked) (now : Int) : Alert where
  id := id
  code := c.code
  name := c.name
  alertType := c.alertType
  rule := c.rule
  isActive := true
  sensitivity := d.sensitivity
  cooldownHours := d.cooldownHours
  postTrigger := c.postTrigger
  enableSound := d.enableSound
  enableDesktop := d.enableDesktop
  lastTriggeredAt := none
  createdAt := now
  updatedAt := now

def Alert.redefine (a : Alert) (d : Definition) (c : Checked) (now : Int) : Alert :=
  { a with
    code := c.code
    name := c.name
    alertType := c.alertType
    rule := c.rule
    sensitivity := d.sensitivity
    cooldownHours := d.cooldownHours
    postTrigger := c.postTrigger
    enableSound := d.enableSound
    enableDesktop := d.enableDesktop
    updatedAt := now }

namespace Desk

def create (d : Desk) (e : Surroundings) (input : Definition) : Outcome Alert :=
  match input.check with
  | .error flaw => (.error (.invalid flaw), d)
  | .ok c =>
    let (id, d) := d.newId
    let a := Alert.define id input c e.now
    match e.outages.insert d.store a with
    | .error reason => (.error (.repository reason), d)
    | .ok s => (.ok a, d.commit s)

def write (d : Desk) (e : Surroundings) (a : Alert) : Outcome Alert :=
  match e.outages.update d.store a with
  | .error reason => (.error (.repository reason), d)
  | .ok none => (.error (.noAlert a.id), d)
  | .ok (some s) => (.ok a, d.commit s)

def update (d : Desk) (e : Surroundings) (id : RecordId) (input : Definition) : Outcome Alert :=
  match input.check with
  | .error flaw => (.error (.invalid flaw), d)
  | .ok c =>
    match d.get e id with
    | .error err => (.error err, d)
    | .ok a => d.write e (a.redefine input c e.now)

def delete (d : Desk) (e : Surroundings) (id : RecordId) : Outcome Unit :=
  match e.outages.delete d.store id with
  | .error reason => (.error (.repository reason), d)
  | .ok none => (.error (.noAlert id), d)
  | .ok (some s) => (.ok (), d.commit s)

def flip (d : Desk) (e : Surroundings) (a : Alert) : Outcome Alert :=
  match e.outages.setActive d.store a.id (!a.isActive) e.now with
  | .error reason => (.error (.repository reason), d)
  | .ok none => (.error (.noAlert a.id), d)
  | .ok (some s) => (.ok { a with isActive := !a.isActive, updatedAt := e.now }, d.commit s)

def toggle (d : Desk) (e : Surroundings) (id : RecordId) : Outcome Alert :=
  match d.get e id with
  | .error err => (.error err, d)
  | .ok a => d.flip e a

def instantiate (d : Desk) (e : Surroundings) (template code name : String) (params : Params) :
    Outcome Alert :=
  match e.outages.findTemplate d.store template with
  | .error reason => (.error (.repository reason), d)
  | .ok none => (.error (.noTemplate template), d)
  | .ok (some t) =>
    match t.define code name params with
    | .error flaw => (.error (.invalid flaw), d)
    | .ok input => d.create e input

end Desk

end TickerWatch
