import ExchangeDesk.CommandLine.Options
import ExchangeDesk.CommandLine.Usage
import ExchangeDesk.Document.Exchange
import ExchangeDesk.Json.Printer

/-!
# Running a command

What a command prints and with which code it ends, given the files it may read
and the clock. Errors of the log go to the standard error before the program's
own last line.
-/

namespace ExchangeDesk.CommandLine

structure Outcome where
  code : Nat
  output : String
  /-- What the program writes itself. What the system reports of a program that it stops is not
  in it. -/
  errors : String
  deriving DecidableEq, Repr

inductive FileError where
  | notFound
  | denied
  | notDirectory
  | isDirectory
  | nameTooLong
  | notText
  | other (detail : String)
  deriving DecidableEq, Repr

namespace FileError

/-- The number under which systems report the cause, where it has one. -/
def number? : FileError → Option Nat
  | .notFound => some 2
  | .denied => some 13
  | .notDirectory => some 20
  | .isDirectory => some 21
  | .nameTooLong => some 36
  | .notText | .other _ => none

def numbered : List FileError := [.notFound, .denied, .notDirectory, .isDirectory, .nameTooLong]

def ofNumber? (n : Nat) : Option FileError := numbered.find? (·.number? = some n)

def description : FileError → String
  | .notFound => "No such file or directory"
  | .denied => "Permission denied"
  | .notDirectory => "Not a directory"
  | .isDirectory => "Is a directory"
  | .nameTooLong => "File name too long"
  | .notText => "stream did not contain valid UTF-8"
  | .other detail => detail

def message (e : FileError) : String :=
  match e.number? with
  | some n => s!"{e.description} (os error {n})"
  | none => e.description

end FileError

def LogSource.path : LogSource → String
  | .store => "forex_engine::store"
  | .resolver => "forex_engine::exchange::resolver"
  | .rates => "forex_engine::exchange::rates"
  | .engine => "forex_engine::exchange::engine"

/-- Indents every line of a text but the first, so that no part of a message
passes for a log line of its own. -/
def indentRest (text : String) : String :=
  String.ofList (text.toList.flatMap fun c =>
    if c = '\n' then c :: List.replicate 4 ' ' else [c])

def errorLog (now : Instant) (log : List LogLine) : String :=
  String.join ((log.filter (·.level = .error)).map fun line =>
    s!"[{now.secondsText} {line.level.name} {LogSource.path line.source}] " ++
      indentRest line.text ++ "\n")

def failure (message : String) : Outcome := ⟨1, "", message ++ "\n"⟩

def require {α : Type} (option : String) : Option α → Except Outcome α
  | some a => .ok a
  | none => .error (failure (UsageError.required option).message)

abbrev Files := String → Except FileError String

/-- Of a text that is no book the system prints what its JSON reader says, with the fault and its
place. One general line stands for that here, so this text is not the system's. -/
def loadBook (files : Files) (path : String) : Except Outcome Book := do
  let text ← (files path).mapError fun e =>
    failure s!"Error reading file '{path}': {e.message}"
  match Snapshot.read? text with
  | none =>
    throw ⟨1, "", "Error parsing JSON: the file does not hold a book\nExpected format:\n" ++
      bookExample⟩
  | some snapshot =>
    (Book.ofSnapshot snapshot).mapError fun e => failure s!"Error loading book: {e.message}"

-- ---------------------------------------------------------------------------
-- The exchange command
-- ---------------------------------------------------------------------------

def requestOf (o : ExchangeOptions) : Except Outcome ExchangeRequest := do
  let user ← require "--user <ID>" o.user
  let source ← require "--from <CODE>" o.source
  let target ← require "--to <CODE>" o.target
  let amount ← require "--amount <AMOUNT>" o.amount
  let date ← require "--date <YYYY-MM-DD>" o.date
  return {
    currencyFrom := ⟨source⟩, currencyTo := ⟨target⟩, amount, date
    user := ⟨⟨user⟩, ⟨o.staff.getD user⟩⟩
    client := ⟨o.clientId, o.clientName⟩ }

def shownAmount? (book : Book) (e : Exchange) : Option Decimal :=
  match book.findCurrency e.currencyTo with
  | some currency => currency.cash? e.amountTaken
  | none => some e.amountTaken

def labelColumn (label : String) : String :=
  label ++ String.ofList (List.replicate (12 - label.length) ' ')

def movementLine (m : CashMovement) : String :=
  s!"    {labelColumn m.transaction.direction.label} {m.transaction.amount} " ++
    s!"{m.transaction.currency}  dr GL {m.debit.glAccount} / cr GL {m.credit.glAccount}  " ++
    s!"[{m.correlation}]\n"

def legLines (number : Nat) (leg : ExecutedLeg) (shown : Decimal) : String :=
  let e := leg.exchange
  s!"Leg {number}: exchange #{e.id} {e.amountGiven} {e.currencyFrom} → {shown} {e.currencyTo} " ++
    s!"(rate #{e.rate})\n" ++ String.join (leg.postings.movements.map movementLine)

/-- Prints leg by leg. An amount that cannot be rounded to cash ends the program with 101, after the
legs before; the report of a crash is the system's and is left out. -/
def legsOutcome (book : Book) (printed : String) (number : Nat) : List ExecutedLeg → Outcome
  | [] => ⟨0, printed, ""⟩
  | leg :: rest =>
    match shownAmount? book leg.exchange with
    | some shown => legsOutcome book (printed ++ legLines number leg shown) (number + 1) rest
    | none => ⟨101, printed, ""⟩

def instantJson (t : Instant) : Json := .str t.text

def runExchange (files : Files) (clock : Nat → Instant) (o : ExchangeOptions) :
    Except Outcome Outcome := do
  let book ← loadBook files (← require "--book <FILE>" o.book)
  let request ← requestOf o
  let env : Environment := { clock, atomicity := o.atomicity }
  match Desk.execute request env { book } with
  | (.ok legs, s) =>
    if o.format = "json" then
      return ⟨0, (Json.list (ExecutedLeg.toJson instantJson) legs).pretty ++ "\n", ""⟩
    else return legsOutcome s.book "" 1 legs
  | (.error e, s) =>
    throw ⟨1, "", errorLog (clock s.readings) s.log ++ s!"Exchange failed: {e.message}\n"⟩

-- ---------------------------------------------------------------------------
-- The rate command
-- ---------------------------------------------------------------------------

def runRate (files : Files) (clock : Nat → Instant) (o : RateOptions) :
    Except Outcome Outcome := do
  let book ← loadBook files (← require "--book <FILE>" o.book)
  let raw ← require "--currency <CODE>" o.currency
  let currency ← (CurrencyCode.parse raw).mapError fun e => failure e.message
  let type ← require "--type <TYPE>" o.type
  let date ← require "--date <YYYY-MM-DD>" o.date
  match Desk.resolveAsOf currency type date { clock } { book } with
  | (.ok rate, _) =>
    return ⟨0, (if o.format = "json" then rate.toJson.pretty else rate.text) ++ "\n", ""⟩
  | (.error e, _) => throw (failure e.message)

-- ---------------------------------------------------------------------------
-- All commands
-- ---------------------------------------------------------------------------

def ended : Except Outcome Outcome → Outcome
  | .ok outcome => outcome
  | .error outcome => outcome

def run (files : Files) (clock : Nat → Instant) (args : List String) : Outcome :=
  match Command.ofArgs? args with
  | .ok none => ⟨1, "", usage⟩
  | .ok (some .help) => ⟨0, "", usage⟩
  | .ok (some (.exchange options)) => ended (runExchange files clock options)
  | .ok (some (.rate options)) => ended (runRate files clock options)
  | .error (.unknownCommand name) =>
    ⟨1, "", (UsageError.unknownCommand name).message ++ "\n" ++ usage⟩
  | .error e => failure e.message

end ExchangeDesk.CommandLine
