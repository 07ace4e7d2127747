import TickerWatch.Extended.Decoder

namespace TickerWatch

open Json

namespace RecordId

def innerDepth : Nat := nestingLimit - 2

def onlyId : Extended.Item → Except Fault RecordId
  | .id i => .ok i
  | item => .error (.notAnId item.text)

def wanted : String := "expecting an ObjectId"

def decoder : Decoder RecordId :=
  .ofShapes
    { Shapes.refusing wanted with
      object := Extended.readObject innerDepth (Extended.item innerDepth) onlyId
      scalar := fun
        | .text s => Extended.idOfText s
        | s => .error (.wrongType (.scalar s) wanted) }

def toValue (id : RecordId) : Value := .object [("$oid", .text id.text)]

end RecordId

end TickerWatch
