import ExchangeDesk.Proofs.Admission
import ExchangeDesk.Proofs.Grounds

/-!
# The spelling of codes

An exchange compares its two codes as they are written and then reads each of them. Both come to
the same: written codes are alike exactly if their normal forms are (`CurrencyCode.folded_eq`).
From then on only normal forms are used, so a request with its codes spelled in another way has the
same outcome but for the words in the log (`execute_respelled`), and a pair is refused for its
codes if they are the same, and else never (`execute_spelling`).
-/

namespace ExchangeDesk

open ExchangeDesk.Action

-- ---------------------------------------------------------------------------
-- Written codes
-- ---------------------------------------------------------------------------

namespace CurrencyCode

variable {a a' b b' : CurrencyCode}

def folded (code : CurrencyCode) : List Char := (Text.trim code.text.toList).map Char.toUpper

theorem sameSpelling_iff_folded : a.sameSpelling b = true ↔ a.folded = b.folded := beq_iff_eq

theorem folded_eq (h : parse a'.text = parse a.text) : a'.folded = a.folded := by
  cases hparse : parse a.text with
  | ok code => exact (parse_spelling (h.trans hparse)).trans (parse_spelling hparse).symm
  | error e =>
    have htext := (parse_quotes (h.trans hparse)).symm.trans (parse_quotes hparse)
    rw [folded, folded, DeskError.invalidCurrencyCode.inj htext]

theorem sameSpelling_congr (ha : parse a'.text = parse a.text) (hb : parse b'.text = parse b.text) :
    a'.sameSpelling b' = a.sameSpelling b := by
  rw [Bool.eq_iff_iff, sameSpelling_iff_folded, sameSpelling_iff_folded, folded_eq ha, folded_eq hb]

end CurrencyCode

namespace ExchangeRequest

/-- Two codes that are read as those of the request. -/
structure Spells (request : ExchangeRequest) (source target : CurrencyCode) : Prop where
  source : CurrencyCode.parse source.text = CurrencyCode.parse request.currencyFrom.text
  target : CurrencyCode.parse target.text = CurrencyCode.parse request.currencyTo.text

def respelled (request : ExchangeRequest) (source target : CurrencyCode) : ExchangeRequest :=
  { request with currencyFrom := source, currencyTo := target }

end ExchangeRequest

/-- The error without the code that a refused pair quotes. -/
def DeskError.unquoted : DeskError → DeskError
  | .invalidCurrencyPair _ => .invalidCurrencyPair ⟨""⟩
  | e => e

namespace Desk

variable {request : ExchangeRequest} {source target : CurrencyCode}

-- ---------------------------------------------------------------------------
-- Pairs of one code
-- ---------------------------------------------------------------------------

theorem execute_samePair (h : request.currencyFrom.sameSpelling request.currencyTo = true)
    (env : Environment) (s : Session) :
    execute request env s = (.error (.invalidCurrencyPair request.currencyFrom), s) := by
  rw [execute, if_pos h]
  rfl

-- ---------------------------------------------------------------------------
-- The same outcome
-- ---------------------------------------------------------------------------

/-- Two runs give the same answer and leave the same session, with other words in the log. -/
def SameButLog {α : Type} (r r' : Except DeskError α × Session) : Prop :=
  r'.1 = r.1 ∧ r'.2 = { r.2 with log := r'.2.log }

/-- `prepare` uses the codes only as they are read. -/
theorem prepare_respelled (h : request.Spells source target)
    (hdiffer : request.currencyFrom.sameSpelling request.currencyTo = false) :
    prepare (request.respelled source target) = prepare request := by
  have hdiffer' : source.sameSpelling target = false :=
    (CurrencyCode.sameSpelling_congr h.source h.target).trans hdiffer
  simp only [prepare, ExchangeRequest.respelled, hdiffer, hdiffer', h.source, h.target,
    Bool.false_eq_true, if_false]

theorem writeLegs_respelled (now : Instant) (plans : List PlannedLeg) :
    writeLegs (request.respelled source target) now plans = writeLegs request now plans := by
  induction plans with
  | nil => rfl
  | cons p rest ih =>
    rw [writeLegs, writeLegs, ih]
    rfl

theorem commitLegs_respelled (plans : List PlannedLeg) :
    commitLegs (request.respelled source target) plans = commitLegs request plans := by
  simp only [commitLegs, writeLegs_respelled]

/-- While legs are committed the codes as they are written go into the alarm only. -/
theorem commitEach_respelled (total : Nat) (done : List ExecutedLeg) (plans : List PlannedLeg)
    (env : Environment) (s : Session) :
    SameButLog (commitEach request total done plans env s)
      (commitEach (request.respelled source target) total done plans env s) := by
  induction plans generalizing done s with
  | nil => exact ⟨rfl, rfl⟩
  | cons p rest ih =>
    rw [commitEach, commitEach, commitLegs_respelled]
    rcases hrun : commitLegs request [p] env s with ⟨e | legs, t⟩
    · -- the alarm is the last thing that happens
      rw [run_bind_error (run_onError_error hrun), run_bind_error (run_onError_error hrun)]
      refine ⟨rfl, ?_⟩
      split
      · rfl
      · rfl
    · rw [run_bind_value (run_onError_value hrun), run_bind_value (run_onError_value hrun)]
      exact ih (done ++ legs) t

theorem settle_respelled (plans : List PlannedLeg) (env : Environment) (s : Session) :
    SameButLog (settle request plans env s)
      (settle (request.respelled source target) plans env s) := by
  have hsettings : (environment : Action DeskError Environment) env s = (.ok env, s) := rfl
  rw [settle, settle, run_bind_value hsettings, run_bind_value hsettings]
  cases env.atomicity with
  | allLegs =>
    rw [commitLegs_respelled]
    exact ⟨rfl, rfl⟩
  | perLeg => exact commitEach_respelled _ _ _ _ _

theorem execute_respelled (h : request.Spells source target)
    (hdiffer : request.currencyFrom.sameSpelling request.currencyTo = false) (env : Environment)
    (s : Session) : SameButLog (execute request env s)
      (execute (request.respelled source target) env s) := by
  rw [execute_eq, execute_eq, prepare_respelled h hdiffer]
  rcases hrun : prepare request env s with ⟨e | plans, t⟩
  · rw [run_bind_error hrun, run_bind_error hrun]
    exact ⟨rfl, rfl⟩
  · rw [run_bind_value hrun, run_bind_value hrun]
    exact settle_respelled plans env t

end Desk

-- ---------------------------------------------------------------------------
-- Errors
-- ---------------------------------------------------------------------------

section

variable {α β : Type} {x : Action DeskError α} {f : α → Action DeskError β} {P : DeskError → Prop}
  {e : DeskError}

def Raises (x : Action DeskError α) (P : DeskError → Prop) : Prop :=
  ∀ env s, Triple x env s (fun _ _ => True) fun e _ => P e

namespace Raises

theorem pure {a : α} : Raises (Pure.pure a) P := fun _ _ => trivial

theorem fail (h : P e) : Raises (Action.fail e : Action DeskError α) P := fun _ _ => h

theorem bind (hx : Raises x P) (hf : ∀ a, Raises (f a) P) : Raises (x >>= f) P :=
  fun env s => Triple.bind (hx env s) fun a s' _ => hf a env s'

theorem ofExcept {o : Except DeskError α} (h : ∀ e, o = .error e → P e) :
    Raises (Action.ofExcept o) P :=
  fun _ _ => Triple.ofExcept (fun _ _ => trivial) h

theorem orFail {o : Option α} (h : P e) : Raises (Action.orFail e o) P :=
  fun _ _ => Triple.orFail (fun _ _ => trivial) fun _ => h

theorem environment : Raises Action.environment P := fun _ _ => trivial

theorem note {level : LogLevel} {source : LogSource} {text : String} :
    Raises (Action.note level source text) P := fun _ _ => trivial

theorem readClock : Raises Action.readClock P := fun _ _ => trivial

theorem drawSequence : Raises Action.drawSequence P := fun _ _ => trivial

theorem draftMovement {m : CashMovement} : Raises (Action.draftMovement m) P := fun _ _ => trivial

theorem onError {handler : DeskError → Action DeskError Unit} (hx : Raises x P) :
    Raises (Action.onError x handler) P :=
  fun env s => Triple.onError (hx env s) fun _ _ h => h

theorem concealing {resource : Resource} {x : Action StoreError α}
    (h : P (.dataIntegrity resource)) : Raises (Action.concealing resource x) P := by
  intro env s
  refine Triple.concealing (D := fun _ _ => True) ?_ fun _ _ _ => h
  rw [Triple]
  split
  · trivial
  · trivial

end Raises
end

def DeskError.NoPair (e : DeskError) : Prop := ∀ code, e ≠ .invalidCurrencyPair code

-- ---------------------------------------------------------------------------
-- Checks and conversions
-- ---------------------------------------------------------------------------

section

variable {e : DeskError}

theorem CurrencyCode.parse_noPair {text : String} (h : parse text = .error e) : e.NoPair := by
  unfold parse at h
  split at h
  · cases h
  · cases h
    exact nofun

theorem checkPositive_noPair {field : AmountField} {amount : Decimal}
    (h : checkPositive field amount = .error e) : e.NoPair := by
  unfold checkPositive at h
  split at h
  · cases h
  · cases h
    exact nofun

theorem checkClientField_noPair {field : ClientField} {value : Option String}
    (h : checkClientField field value = .error e) : e.NoPair := by
  unfold checkClientField at h
  split at h
  · split at h
    · cases h
      exact nofun
    · cases h
  · cases h

theorem Client.validate_noPair {client : Client} (h : client.validate = .error e) : e.NoPair := by
  rcases bind_error.mp h with h | ⟨_, -, h⟩
  · exact checkClientField_noPair h
  · exact checkClientField_noPair h

theorem Rate.positiveAmount_noPair {rate : Rate} (h : rate.positiveAmount = .error e) :
    e.NoPair := by
  unfold positiveAmount at h
  split at h
  · cases h
  · cases h
    exact nofun

theorem convertToHome_noPair {amount : Decimal} {rate : Rate}
    (h : convertToHome amount rate = .error e) : e.NoPair := by
  rcases bind_error.mp h with h | ⟨_, -, h⟩
  · exact Rate.positiveAmount_noPair h
  · split at h
    · cases h
    · cases h
      exact nofun

theorem convertFromHome_noPair {scale : Nat} {amount : Decimal} {rate : Rate}
    (h : convertFromHome scale amount rate = .error e) : e.NoPair := by
  rcases bind_error.mp h with h | ⟨_, -, h⟩
  · exact Rate.positiveAmount_noPair h
  · split at h
    · cases h
    · cases h
      exact nofun

end

namespace Desk

variable {request : ExchangeRequest}

-- ---------------------------------------------------------------------------
-- The functions of the desk
-- ---------------------------------------------------------------------------

theorem requireCurrency_raises (code : CurrencyCode) :
    Raises (requireCurrency code) DeskError.NoPair :=
  .bind (.concealing nofun) fun _ => .orFail nofun

theorem homeCurrency_raises : Raises homeCurrency DeskError.NoPair := by
  refine .bind (.concealing nofun) fun homes => ?_
  split
  · exact .pure
  · exact .fail nofun

theorem route_raises (source target : Currency) :
    Raises (route source target) DeskError.NoPair := by
  unfold route
  split
  · exact .pure
  · exact .pure
  · exact homeCurrency_raises.bind fun _ => .pure
  · exact homeCurrency_raises.bind fun _ => .fail nofun

theorem resolveAsOf_raises (currency : CurrencyCode) (type : RateType) (date : Date) :
    Raises (resolveAsOf currency type date) DeskError.NoPair := by
  refine .bind (.concealing nofun) fun found => ?_
  cases found with
  | some rate => exact Raises.note.bind fun _ => .pure
  | none => exact .fail nofun

theorem planToHome_raises (source home : CurrencyCode) (amount : Decimal) (date : Date) :
    Raises (planToHome source home amount date) DeskError.NoPair := by
  refine (resolveAsOf_raises _ _ _).bind fun rate => ?_
  exact .bind (.ofExcept fun _ => convertToHome_noPair) fun _ => .pure

theorem planFromHome_raises (home target : CurrencyCode) (amount : Decimal) (date : Date) :
    Raises (planFromHome home target amount date) DeskError.NoPair := by
  refine (resolveAsOf_raises _ _ _).bind fun rate => ?_
  refine Raises.environment.bind fun env => ?_
  exact .bind (.ofExcept fun _ => convertFromHome_noPair) fun _ => .pure

theorem plan_raises (way : Route) (source target : CurrencyCode) (amount : Decimal) (date : Date) :
    Raises (plan way source target amount date) DeskError.NoPair := by
  cases way with
  | toHome => exact (planToHome_raises _ _ _ _).bind fun _ => .pure
  | fromHome => exact (planFromHome_raises _ _ _ _).bind fun _ => .pure
  | cross home =>
    refine (planToHome_raises _ _ _ _).bind fun first => ?_
    exact (planFromHome_raises _ _ _ _).bind fun _ => .pure

theorem prepare_raises
    (hdiffer : request.currencyFrom.sameSpelling request.currencyTo = false) :
    Raises (prepare request) DeskError.NoPair := by
  unfold prepare
  rw [hdiffer]
  refine .bind (.ofExcept fun _ => CurrencyCode.parse_noPair) fun sourceCode => ?_
  refine .bind (.ofExcept fun _ => CurrencyCode.parse_noPair) fun targetCode => ?_
  refine .bind (.ofExcept fun _ => checkPositive_noPair) fun _ => ?_
  refine .bind (.ofExcept fun _ => Client.validate_noPair) fun _ => ?_
  refine (requireCurrency_raises _).bind fun source => ?_
  refine (requireCurrency_raises _).bind fun target => ?_
  refine (route_raises _ _).bind fun way => ?_
  exact Raises.note.bind fun _ => plan_raises _ _ _ _ _

theorem findAccount_raises (activity : Activity) (currency : CurrencyCode) :
    Raises (findAccount activity currency) DeskError.NoPair := by
  refine .bind (.concealing nofun) fun found => ?_
  exact .bind (.orFail nofun) fun _ => .pure

theorem movement_raises (leg : Exchange) (cashier : Cashier) (direction : Direction)
    (amount : Decimal) (currency : CurrencyCode) (instant : Instant) :
    Raises (movement leg cashier direction amount currency instant) DeskError.NoPair := by
  refine (findAccount_raises _ _).bind fun vault => ?_
  refine (findAccount_raises _ _).bind fun teller => ?_
  refine Raises.drawSequence.bind fun sequence => ?_
  exact Raises.draftMovement.bind fun _ => .pure

theorem preparePostings_raises (leg : Exchange) (instant : Instant) :
    Raises (preparePostings leg instant) DeskError.NoPair := by
  refine .bind (.concealing nofun) fun found => ?_
  refine .bind (.orFail nofun) fun cashier => ?_
  refine (movement_raises _ _ _ _ _ _).bind fun outward => ?_
  exact (movement_raises _ _ _ _ _ _).bind fun inward => .pure

theorem recordMovement_raises (m : CashMovement) : Raises (recordMovement m) DeskError.NoPair :=
  .bind (.concealing nofun) fun _ => .bind (.concealing nofun) fun _ => .concealing nofun

theorem postLeg_raises (leg : Exchange) (instant : Instant) :
    Raises (postLeg leg instant) DeskError.NoPair := by
  refine (preparePostings_raises _ _).bind fun postings => ?_
  refine (recordMovement_raises _).bind fun _ => ?_
  exact (recordMovement_raises _).bind fun _ => .pure

theorem writeLegs_raises (now : Instant) (plans : List PlannedLeg) :
    Raises (writeLegs request now plans) DeskError.NoPair := by
  induction plans with
  | nil => exact .pure
  | cons p rest ih =>
    have hleg : Raises (writeLeg request now p) DeskError.NoPair :=
      .bind (.concealing nofun) fun _ => (postLeg_raises _ _).bind fun _ => .pure
    exact hleg.bind fun _ => ih.bind fun _ => .pure

theorem noteCommitted_raises (legs : List ExecutedLeg) :
    Raises (noteCommitted legs) DeskError.NoPair := by
  induction legs with
  | nil => exact .pure
  | cons leg rest ih => exact Raises.note.bind fun _ => ih

theorem commitLegs_raises (plans : List PlannedLeg) :
    Raises (commitLegs request plans) DeskError.NoPair := by
  refine .bind (.concealing nofun) fun _ => ?_
  refine Raises.readClock.bind fun now => ?_
  refine (writeLegs_raises _ _).bind fun legs => ?_
  refine .bind (.concealing nofun) fun _ => ?_
  exact (noteCommitted_raises _).bind fun _ => .pure

theorem commitEach_raises (total : Nat) (done : List ExecutedLeg) (plans : List PlannedLeg) :
    Raises (commitEach request total done plans) DeskError.NoPair := by
  induction plans generalizing done with
  | nil => exact .pure
  | cons p rest ih => exact (commitLegs_raises [p]).onError.bind fun _ => ih _

theorem settle_raises (plans : List PlannedLeg) :
    Raises (settle request plans) DeskError.NoPair := by
  refine Raises.environment.bind fun env => ?_
  split
  · exact commitLegs_raises _
  · exact commitEach_raises _ _ _

theorem execute_raises (hdiffer : request.currencyFrom.sameSpelling request.currencyTo = false) :
    Raises (execute request) DeskError.NoPair := by
  rw [execute_eq]
  exact (prepare_raises hdiffer).bind fun plans => settle_raises plans

-- ---------------------------------------------------------------------------
-- The whole exchange
-- ---------------------------------------------------------------------------

def untimedAnswer (answer : Except DeskError (List ExecutedLeg)) :
    Except DeskError (List ExecutedLeg) :=
  answer.map (·.map (·.untimed))

theorem execute_otherClock (request : ExchangeRequest) (env : Environment) (s : Session)
    (clock : Nat → Instant) :
    untimedAnswer (execute request { env with clock } s).1 =
        untimedAnswer (execute request env s).1 ∧
      (execute request { env with clock } s).2.book.untimed =
        (execute request env s).2.book.untimed := by
  have henv : env.Alike { env with clock } := ⟨rfl, rfl, rfl⟩
  have hgrounds : SameGrounds env { env with clock } s.book s.book request :=
    ⟨fun _ _ => rfl, fun _ _ _ _ => rfl, fun _ _ _ _ => rfl, fun _ _ _ _ => rfl⟩
  rcases (execute_inStep henv hgrounds (.refl s)).cases trivial with
    ⟨legs, legs', t, t', hrun, hrun', hlegs, ht⟩ | ⟨e, t, t', hrun, hrun', ht⟩
  · rw [hrun, hrun']
    exact ⟨congrArg Except.ok hlegs, ht.book_untimed⟩
  · rw [hrun, hrun']
    exact ⟨rfl, ht.book_untimed⟩

theorem untimedAnswer_unquoted (answer : Except DeskError (List ExecutedLeg)) :
    (untimedAnswer answer).mapError DeskError.unquoted =
      untimedAnswer (answer.mapError DeskError.unquoted) := by
  cases answer with
  | ok legs => rfl
  | error e => rfl

theorem execute_spelled (h : request.Spells source target) (env : Environment) (s : Session) :
    (execute (request.respelled source target) env s).1.mapError DeskError.unquoted =
        (execute request env s).1.mapError DeskError.unquoted ∧
      (execute (request.respelled source target) env s).2.book =
        (execute request env s).2.book := by
  cases hsame : request.currencyFrom.sameSpelling request.currencyTo with
  | false =>
    obtain ⟨hanswer, hsession⟩ := execute_respelled h hsame env s
    exact ⟨by rw [hanswer], by rw [hsession]⟩
  | true =>
    have hrun := execute_samePair hsame env s
    have hsame' : (request.respelled source target).currencyFrom.sameSpelling
        (request.respelled source target).currencyTo = true :=
      (CurrencyCode.sameSpelling_congr h.source h.target).trans hsame
    rw [hrun, execute_samePair hsame' env s]
    exact ⟨rfl, rfl⟩

/-- Codes that are read as those of the request (`Spells`) give the same legs or the same error but
for a quoted code, and the same book; by another clock the same but for times. The pair is refused
exactly if both codes are read as one, and before any call if they are equal but for blanks and case
(`folded`). -/
theorem execute_spelling (request : ExchangeRequest) (env : Environment) (s : Session) :
    (∀ source target, request.Spells source target →
      ((execute (request.respelled source target) env s).1.mapError DeskError.unquoted =
          (execute request env s).1.mapError DeskError.unquoted ∧
        (execute (request.respelled source target) env s).2.book =
          (execute request env s).2.book) ∧
      ∀ clock, (untimedAnswer (execute (request.respelled source target) { env with clock } s).1
          ).mapError DeskError.unquoted =
          (untimedAnswer (execute request env s).1).mapError DeskError.unquoted ∧
        (execute (request.respelled source target) { env with clock } s).2.book.untimed =
          (execute request env s).2.book.untimed) ∧
    (∀ x y, CurrencyCode.parse request.currencyFrom.text = .ok x →
      CurrencyCode.parse request.currencyTo.text = .ok y →
      ((∃ code, (execute request env s).1 = .error (.invalidCurrencyPair code)) ↔ x = y)) ∧
    (request.currencyFrom.folded = request.currencyTo.folded →
      execute request env s = (.error (.invalidCurrencyPair request.currencyFrom), s)) := by
  refine ⟨fun source target h => ?_, fun x y hx hy => ?_, fun h => ?_⟩
  · refine ⟨execute_spelled h env s, fun clock => ?_⟩
    obtain ⟨hanswer, hbook⟩ := execute_spelled h { env with clock } s
    obtain ⟨huntimed, hbook'⟩ := execute_otherClock request env s clock
    constructor
    · rw [untimedAnswer_unquoted, hanswer, ← untimedAnswer_unquoted, huntimed]
    · rw [hbook, hbook']
  · constructor
    · rintro ⟨code, hrun⟩
      by_contra hne
      have hdiffer : request.currencyFrom.sameSpelling request.currencyTo = false :=
        Bool.eq_false_iff.mpr fun h => hne ((CurrencyCode.sameSpelling_iff hx hy).mp h)
      exact (execute_raises hdiffer env s).error (Prod.ext hrun rfl) code rfl
    · rintro rfl
      rw [execute_samePair (CurrencyCode.sameSpelling_of_parse hx hy) env s]
      exact ⟨_, rfl⟩
  · exact execute_samePair (CurrencyCode.sameSpelling_iff_folded.mpr h) env s

theorem execute_spelling_smallRequest :
    smallRequest.Spells ⟨"Usd\u00a0"⟩ ⟨"\teur "⟩ ∧
    (execute smallRequest {} { book := smallBook }).1.isOk = true ∧
    (execute (smallRequest.respelled ⟨"Usd\u00a0"⟩ ⟨"\teur "⟩) {} { book := smallBook }).2.book =
      (execute smallRequest {} { book := smallBook }).2.book ∧
    (¬ ∃ code, (execute smallRequest {} { book := smallBook }).1 =
      .error (.invalidCurrencyPair code)) ∧
    execute (smallRequest.respelled ⟨"e?"⟩ ⟨" E?"⟩) {} { book := smallBook } =
      (.error (.invalidCurrencyPair ⟨"e?"⟩), { book := smallBook }) := by
  have hspells : smallRequest.Spells ⟨"Usd\u00a0"⟩ ⟨"\teur "⟩ := ⟨by rfl, by rfl⟩
  have hfrom : CurrencyCode.parse smallRequest.currencyFrom.text = .ok ⟨"USD"⟩ := by rfl
  have hto : CurrencyCode.parse smallRequest.currencyTo.text = .ok ⟨"EUR"⟩ := by rfl
  obtain ⟨hsame, hpair, -⟩ := execute_spelling smallRequest {} { book := smallBook }
  obtain ⟨-, -, hrefused⟩ := execute_spelling (smallRequest.respelled ⟨"e?"⟩ ⟨" E?"⟩) {}
    { book := smallBook }
  exact ⟨hspells, by decide +kernel, (hsame _ _ hspells).1.2,
    (hpair _ _ hfrom hto).not.mpr (by decide), hrefused (by decide)⟩

end Desk
end ExchangeDesk
