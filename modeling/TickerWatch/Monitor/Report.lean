import TickerWatch.Json.Value

namespace TickerWatch

structure Report where
  alerts : Nat := 0
  codes : Nat := 0
  codesFailed : List String := []
  evaluated : Nat := 0
  cooling : Nat := 0
  skipped : Nat := 0
  fired : Nat := 0
  deriving DecidableEq, Repr

open Json in
def Report.toValue (r : Report) : Value :=
  .object
    [("alerts", .integer r.alerts), ("codes", .integer r.codes),
      ("codes_failed", .list (r.codesFailed.map .text)), ("evaluated", .integer r.evaluated),
      ("cooling", .integer r.cooling), ("skipped", .integer r.skipped),
      ("fired", .integer r.fired)]

end TickerWatch
