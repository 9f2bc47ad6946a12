import ExchangeDesk.Book.Basic

/-!
# Sessions

A session is a book at work: the unit of work that is open, the sequence of
correlation ids, what was drafted, the calls made to the store so far and the
log. An action runs in an environment, which tells the time, fails calls to the
store and may know currencies that the book does not; it changes the session and
gives a value or an error. Changes made before an error stay.
-/

namespace ExchangeDesk

inductive StoreCall where
  | findRateAsOf
  | findRate
  | listRates
  | insertRate
  | replaceRate
  | findCurrency
  | homeCurrencies
  | findCashier
  | findAccount
  | findExchange
  | listExchanges
  | replaceExchange
  | deleteExchange
  | begin
  | insertExchange
  | recordTransaction
  | postEntry
  | commit
  deriving DecidableEq, Repr

inductive LogLevel where
  | debug
  | info
  | warn
  | error
  deriving DecidableEq, Repr

def LogLevel.name : LogLevel → String
  | .debug => "DEBUG"
  | .info => "INFO"
  | .warn => "WARN"
  | .error => "ERROR"

inductive LogSource where
  | store
  | resolver
  | rates
  | engine
  deriving DecidableEq, Repr

structure LogLine where
  level : LogLevel
  source : LogSource
  text : String
  deriving DecidableEq, Repr

/-- How the legs of one exchange are committed. -/
inductive Atomicity where
  /-- All together or not at all. -/
  | allLegs
  /-- One by one; legs that are committed stay when a later one fails. -/
  | perLeg
  deriving DecidableEq, Repr

structure Environment where
  /-- Whether a call fails, by how many calls of its kind came before it. -/
  faults : StoreCall → Nat → Option StoreError := fun _ _ => none
  registry : List Currency := []
  /-- The readings of the clock, one after the other. -/
  clock : Nat → Instant := fun _ => ⟨0⟩
  /-- Fraction digits of amounts that leave the home currency. -/
  rateScale : Nat := ExchangeDesk.rateScale
  atomicity : Atomicity := .allLegs

/-- Everything that was made at a desk, whether or not it was ever committed. -/
structure Drafts where
  exchanges : List Exchange := []
  movements : List CashMovement := []
  deriving DecidableEq, Repr

structure Session where
  book : Book
  /-- The unit of work. What a new one replaces was never committed. -/
  staged : Staged := {}
  /-- The next number for a correlation id. -/
  sequence : Nat := 1
  drafts : Drafts := {}
  readings : Nat := 0
  calls : List StoreCall := []
  log : List LogLine := []
  deriving DecidableEq, Repr

def Action (ε α : Type) : Type := Environment → Session → Except ε α × Session

namespace Action

protected def pure {ε α : Type} (a : α) : Action ε α := fun _ s => (.ok a, s)

protected def bind {ε α β : Type} (x : Action ε α) (f : α → Action ε β) : Action ε β :=
  fun env s =>
    match x env s with
    | (.ok a, s) => f a env s
    | (.error e, s) => (.error e, s)

instance {ε : Type} : Monad (Action ε) where
  pure := Action.pure
  bind := Action.bind

def fail {ε α : Type} (e : ε) : Action ε α := fun _ s => (.error e, s)

def ofExcept {ε α : Type} (x : Except ε α) : Action ε α := fun _ s => (x, s)

def environment {ε : Type} : Action ε Environment := fun env s => (.ok env, s)

def book {ε : Type} : Action ε Book := fun _ s => (.ok s.book, s)

def modify {ε : Type} (f : Session → Session) : Action ε Unit := fun _ s => (.ok (), f s)

def setBook {ε : Type} (book : Book) : Action ε Unit := modify fun s => { s with book }

def note {ε : Type} (level : LogLevel) (source : LogSource) (text : String) : Action ε Unit :=
  modify fun s => { s with log := s.log ++ [⟨level, source, text⟩] }

def readClock {ε : Type} : Action ε Instant := fun env s =>
  (.ok (env.clock s.readings), { s with readings := s.readings + 1 })

def drawSequence {ε : Type} : Action ε Nat := fun _ s =>
  (.ok s.sequence, { s with sequence := s.sequence + 1 })

def draftMovement {ε : Type} (m : CashMovement) : Action ε Unit :=
  modify fun s => { s with drafts.movements := s.drafts.movements ++ [m] }

def onError {ε α : Type} (x : Action ε α) (handler : ε → Action ε Unit) : Action ε α :=
  fun env s =>
    match x env s with
    | (.ok a, s) => (.ok a, s)
    | (.error e, s) => (.error e, (handler e env s).2)

/-- Hides the words of a store: they go to the log, and the caller learns the
resource. -/
def concealing {α : Type} (resource : Resource) (x : Action StoreError α) : Action DeskError α :=
  fun env s =>
    match x env s with
    | (.ok a, s) => (.ok a, s)
    | (.error e, s) =>
      (.error (.dataIntegrity resource),
        { s with
          log := s.log ++
            [⟨.error, .store, s!"{resource.name} store failure: {e.message}"⟩] })

def orFail {ε α : Type} (e : ε) : Option α → Action ε α
  | some a => Action.pure a
  | none => fail e

end Action
end ExchangeDesk
