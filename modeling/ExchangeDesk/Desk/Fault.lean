import ExchangeDesk.Desk.Session

/-!
# Planned faults

A fault fails some of the calls of one kind: it lets a number of them pass and
then fails the next ones, a number of times or for ever. Of several faults for
one call the first one counts.
-/

namespace ExchangeDesk

structure Fault where
  call : StoreCall
  after : Nat
  times : Option Nat
  error : StoreError
  deriving DecidableEq, Repr

namespace Fault

/-- Whether the fault fails the call with `n` calls of its kind before it. -/
def strikes (f : Fault) (call : StoreCall) (n : Nat) : Bool :=
  f.call = call && f.after ≤ n &&
    match f.times with
    | some times => n < f.after + times
    | none => true

def schedule (faults : List Fault) (call : StoreCall) (n : Nat) : Option StoreError :=
  (faults.find? (·.strikes call n)).map (·.error)

end Fault
end ExchangeDesk
