import Mathlib.Logic.Relation
import ExchangeDesk.Proofs.Runs

/-!
# The steps of a session

`Session.Step` lists every single change that an action makes to a session. All
that a desk does is a sequence of such steps (`Desk.execute_stepwise` and the
like), also where it ends with an error, so what each step keeps is kept by every
run (`run_leads`). Drafts are the exchanges that were given a number and the
movements that were built, no more and no less.
-/

namespace ExchangeDesk

open ExchangeDesk.Action

/-- The two entries of a movement bear the correlation id with this number of the
sequence. -/
def CashMovement.Bears (m : CashMovement) (sequence : Nat) : Prop :=
  ∃ instant user office, m.debit.correlation = .generate instant user office sequence ∧
    m.credit.correlation = .generate instant user office sequence

namespace Session

inductive Step : Session → Session → Prop
  | called (s : Session) (call : StoreCall) : Step s { s with calls := s.calls ++ [call] }
  | logged (s : Session) (line : LogLine) : Step s { s with log := s.log ++ [line] }
  | timed (s : Session) : Step s { s with readings := s.readings + 1 }
  | begun (s : Session) : Step s { s with staged := {} }
  | numbered (s : Session) (exchange : NewExchange) : Step s { s with
      book := (s.book.numberExchange exchange).2
      staged.exchanges := s.staged.exchanges ++ [(s.book.numberExchange exchange).1]
      drafts.exchanges := s.drafts.exchanges ++ [(s.book.numberExchange exchange).1] }
  | moved (s : Session) (m : CashMovement) (bears : m.Bears s.sequence) : Step s { s with
      sequence := s.sequence + 1
      drafts.movements := s.drafts.movements ++ [m] }
  | recorded (s : Session) (transaction : CashTransaction) : Step s { s with
      staged.transactions := s.staged.transactions ++ [transaction] }
  | posted (s : Session) (entry : JournalEntry) : Step s { s with
      staged.journal := s.staged.journal ++ [entry] }
  | committed (s : Session) {b : Book} (h : s.book.commit s.staged = .ok b) :
      Step s { s with book := b, staged := {} }
  | rateInserted (s : Session) (rate : NewRate) :
      Step s { s with book := (s.book.insertRate rate).2 }
  | rateReplaced (s : Session) {rate : Rate} {b : Book} (h : s.book.replaceRate rate = .ok b) :
      Step s { s with book := b }
  | exchangeReplaced (s : Session) {exchange : Exchange} {b : Book}
      (h : s.book.replaceExchange exchange = .ok b) : Step s { s with book := b }
  | exchangeDeleted (s : Session) (id : ExchangeId) :
      Step s { s with book := (s.book.deleteExchange id).2 }

/-- The second session comes from the first one by any number of steps. -/
def Leads : Session → Session → Prop := Relation.ReflTransGen Step

namespace Leads

variable {s s' s'' : Session}

theorem refl (s : Session) : s.Leads s := Relation.ReflTransGen.refl

theorem trans (h : s.Leads s') (h' : s'.Leads s'') : s.Leads s'' := Relation.ReflTransGen.trans h h'

theorem step (h : s.Step s') : s.Leads s' := Relation.ReflTransGen.single h

theorem invariant {I : Session → Prop} (hstep : ∀ s s', I s → s.Step s' → I s')
    (h : s.Leads s') (hs : I s) : I s' := by
  induction h with
  | refl => exact hs
  | tail _ hlast ih => exact hstep _ _ ih hlast

end Leads
end Session

-- ---------------------------------------------------------------------------
-- Actions that proceed by steps
-- ---------------------------------------------------------------------------

/-- However the action ends, it has got there by steps. -/
structure Stepwise {ε α : Type} (x : Action ε α) : Prop where
  triple (env : Environment) (s : Session) :
    Triple x env s (fun _ s' => s.Leads s') (fun _ s' => s.Leads s')

namespace Stepwise

variable {ε α β : Type} {x : Action ε α} {f : α → Action ε β}

theorem pure (a : α) : Stepwise (Pure.pure a : Action ε α) := ⟨fun _ s => .refl s⟩

theorem fail (e : ε) : Stepwise (fail e : Action ε α) := ⟨fun _ s => .refl s⟩

theorem environment : Stepwise (environment : Action ε Environment) := ⟨fun _ s => .refl s⟩

theorem orFail (e : ε) (o : Option α) : Stepwise (orFail e o) :=
  ⟨fun _ s => Triple.orFail (fun _ _ => .refl s) fun _ => .refl s⟩

theorem ofExcept (o : Except ε α) : Stepwise (ofExcept o) :=
  ⟨fun _ s => Triple.ofExcept (fun _ _ => .refl s) fun _ _ => .refl s⟩

theorem note (level : LogLevel) (source : LogSource) (text : String) :
    Stepwise (note level source text : Action ε Unit) :=
  ⟨fun _ s => .step (.logged s _)⟩

theorem readClock : Stepwise (readClock : Action ε Instant) := ⟨fun _ s => .step (.timed s)⟩

theorem bind (hx : Stepwise x) (hf : ∀ a, Stepwise (f a)) : Stepwise (x >>= f) := by
  constructor
  intro env s
  refine Triple.bind (hx.triple env s) ?_
  intro a s' hs
  exact Triple.mono ((hf a).triple env s') (fun _ _ h => hs.trans h) fun _ _ h => hs.trans h

theorem onError {handler : ε → Action ε Unit} (hx : Stepwise x) (hh : ∀ e, Stepwise (handler e)) :
    Stepwise (onError x handler) := by
  constructor
  intro env s
  refine Triple.onError (hx.triple env s) ?_
  intro e s' hs
  exact hs.trans (Triple.final ((hh e).triple env s'))

theorem concealing {resource : Resource} {x : Action StoreError α} (hx : Stepwise x) :
    Stepwise (concealing resource x) := by
  constructor
  intro env s
  refine Triple.concealing (hx.triple env s) ?_
  intro e s' hs
  exact hs.trans (.step (.logged s' _))

end Stepwise

namespace Store

theorem reach_stepwise (call : StoreCall) : Stepwise (reach call) := by
  constructor
  intro env s
  simp only [Triple, reach]
  cases env.faults call (s.calls.count call) with
  | none => exact .step (.called s call)
  | some e => exact .step (.called s call)

theorem findRateAsOf_stepwise (currency : CurrencyCode) (type : RateType) (date : Date) :
    Stepwise (findRateAsOf currency type date) :=
  .bind (reach_stepwise _) fun _ => ⟨fun _ s => .refl s⟩

theorem findRate_stepwise (id : RateId) : Stepwise (findRate id) :=
  .bind (reach_stepwise _) fun _ => ⟨fun _ s => .refl s⟩

theorem findCurrency_stepwise (code : CurrencyCode) : Stepwise (findCurrency code) :=
  .bind (reach_stepwise _) fun _ => ⟨fun _ s => .refl s⟩

theorem homeCurrencies_stepwise : Stepwise homeCurrencies :=
  .bind (reach_stepwise _) fun _ => ⟨fun _ s => .refl s⟩

theorem findCashier_stepwise (staff : StaffId) : Stepwise (findCashier staff) :=
  .bind (reach_stepwise _) fun _ => ⟨fun _ s => .refl s⟩

theorem findAccount_stepwise (activity : Activity) (currency : CurrencyCode) :
    Stepwise (findAccount activity currency) :=
  .bind (reach_stepwise _) fun _ => ⟨fun _ s => .refl s⟩

theorem findExchange_stepwise (id : ExchangeId) : Stepwise (findExchange id) :=
  .bind (reach_stepwise _) fun _ => ⟨fun _ s => .refl s⟩

theorem insertRate_stepwise (rate : NewRate) : Stepwise (insertRate rate) :=
  .bind (reach_stepwise _) fun _ => ⟨fun _ s => .step (.rateInserted s rate)⟩

theorem replace_stepwise {call : StoreCall} {g : Book → Except StoreError Book}
    (hg : ∀ (s : Session) b, g s.book = .ok b → s.Step { s with book := b }) :
    Stepwise (do reach call; setBook (← ofExcept (g (← book)))) := by
  refine .bind (reach_stepwise _) fun _ => ⟨fun env s => ?_⟩
  refine Triple.bind (P := fun b s' => b = s.book ∧ s' = s) (Triple.book ⟨rfl, rfl⟩) ?_
  rintro _ s ⟨rfl, rfl⟩
  refine Triple.bind (P := fun b s' => g s.book = .ok b ∧ s' = s)
    (Triple.ofExcept (fun b hb => ⟨hb, rfl⟩) fun _ _ => .refl s) ?_
  rintro b s ⟨hb, rfl⟩
  exact Triple.modify (.step (hg s b hb))

theorem replaceRate_stepwise (rate : Rate) : Stepwise (replaceRate rate) :=
  replace_stepwise fun s _ h => .rateReplaced s h

theorem replaceExchange_stepwise (exchange : Exchange) : Stepwise (replaceExchange exchange) :=
  replace_stepwise fun s _ h => .exchangeReplaced s h

theorem deleteExchange_stepwise (id : ExchangeId) : Stepwise (deleteExchange id) :=
  .bind (reach_stepwise _) fun _ => ⟨fun _ s => .step (.exchangeDeleted s id)⟩

theorem begin_stepwise : Stepwise begin :=
  .bind (reach_stepwise _) fun _ => ⟨fun _ s => .step (.begun s)⟩

theorem insertExchange_stepwise (exchange : NewExchange) : Stepwise (insertExchange exchange) :=
  .bind (reach_stepwise _) fun _ => ⟨fun _ s => .step (.numbered s exchange)⟩

theorem recordTransaction_stepwise (transaction : CashTransaction) :
    Stepwise (recordTransaction transaction) :=
  .bind (reach_stepwise _) fun _ => ⟨fun _ s => .step (.recorded s transaction)⟩

theorem postEntry_stepwise (entry : JournalEntry) : Stepwise (postEntry entry) :=
  .bind (reach_stepwise _) fun _ => ⟨fun _ s => .step (.posted s entry)⟩

theorem commit_stepwise : Stepwise commit := by
  refine .bind (reach_stepwise _) fun _ => ⟨fun env s => ?_⟩
  cases h : s.book.commit s.staged with
  | ok b =>
    simp only [Triple, h]
    exact .step (.committed s h)
  | error e =>
    simp only [Triple, h]
    exact .refl s

end Store

namespace Desk

-- ---------------------------------------------------------------------------
-- Rates and currencies
-- ---------------------------------------------------------------------------

theorem requireCurrency_stepwise (code : CurrencyCode) : Stepwise (requireCurrency code) :=
  .bind (Store.findCurrency_stepwise code).concealing fun _ => .orFail _ _

theorem resolveAsOf_stepwise (currency : CurrencyCode) (type : RateType) (asOf : Date) :
    Stepwise (resolveAsOf currency type asOf) := by
  refine .bind (Store.findRateAsOf_stepwise currency type asOf).concealing fun found => ?_
  cases found with
  | some rate => exact .bind (.note ..) fun _ => .pure rate
  | none => exact .fail _

theorem homeCurrency_stepwise : Stepwise homeCurrency := by
  refine .bind Store.homeCurrencies_stepwise.concealing fun homes => ?_
  split
  · exact .pure _
  · exact .fail _

theorem retrieveRate_stepwise (id : RateId) : Stepwise (retrieveRate id) :=
  .bind (Store.findRate_stepwise id).concealing fun _ => .orFail _ _

theorem createRate_stepwise (rate : NewRate) : Stepwise (createRate rate) := by
  refine .bind (.ofExcept _) fun valid => ?_
  refine .bind (requireCurrency_stepwise _) fun _ => ?_
  refine .bind (Store.insertRate_stepwise _).concealing fun stored => ?_
  exact .bind (.note ..) fun _ => .pure stored

theorem updateRate_stepwise (id : RateId) (changes : RateChanges) :
    Stepwise (updateRate id changes) := by
  refine .bind (retrieveRate_stepwise id) fun current => ?_
  refine .bind (.ofExcept _) fun (next, applied) => ?_
  cases applied with
  | nil => exact .pure _
  | cons c rest =>
    simp only [List.isEmpty_cons, Bool.false_eq_true, if_false]
    have hwrite (text : String) : Stepwise (do
        concealing .exchangeRate (Store.replaceRate next)
        note .info .rates text
        return (next, c :: rest)) :=
      .bind (Store.replaceRate_stepwise next).concealing fun _ =>
        .bind (.note ..) fun _ => .pure _
    split
    · exact .bind (requireCurrency_stepwise _) fun _ => hwrite _
    · exact hwrite _

-- ---------------------------------------------------------------------------
-- Exchanges
-- ---------------------------------------------------------------------------

theorem route_stepwise (source target : Currency) : Stepwise (route source target) := by
  unfold route
  split
  · exact .pure _
  · exact .pure _
  · exact .bind homeCurrency_stepwise fun _ => .pure _
  · exact .bind homeCurrency_stepwise fun _ => .fail _

theorem planToHome_stepwise (source home : CurrencyCode) (amount : Decimal) (date : Date) :
    Stepwise (planToHome source home amount date) :=
  .bind (resolveAsOf_stepwise ..) fun _ => .bind (.ofExcept _) fun _ => .pure _

theorem planFromHome_stepwise (home target : CurrencyCode) (amount : Decimal) (date : Date) :
    Stepwise (planFromHome home target amount date) :=
  .bind (resolveAsOf_stepwise ..) fun _ =>
    .bind .environment fun _ => .bind (.ofExcept _) fun _ => .pure _

theorem plan_stepwise (way : Route) (source target : CurrencyCode) (amount : Decimal)
    (date : Date) : Stepwise (plan way source target amount date) := by
  cases way with
  | toHome => exact .bind (planToHome_stepwise ..) fun _ => .pure _
  | fromHome => exact .bind (planFromHome_stepwise ..) fun _ => .pure _
  | cross home =>
    exact .bind (planToHome_stepwise ..) fun _ => .bind (planFromHome_stepwise ..) fun _ => .pure _

theorem findAccount_stepwise (activity : Activity) (currency : CurrencyCode) :
    Stepwise (findAccount activity currency) :=
  .bind (Store.findAccount_stepwise ..).concealing fun _ => .bind (.orFail _ _) fun _ => .pure _

theorem movement_stepwise (leg : Exchange) (cashier : Cashier) (direction : Direction)
    (amount : Decimal) (currency : CurrencyCode) (instant : Instant) :
    Stepwise (movement leg cashier direction amount currency instant) := by
  refine .bind (findAccount_stepwise ..) fun vault => ?_
  refine .bind (findAccount_stepwise ..) fun teller => ?_
  constructor
  intro env s
  cases direction with
  | inward => exact .step (.moved s _ ⟨_, _, _, rfl, rfl⟩)
  | outward => exact .step (.moved s _ ⟨_, _, _, rfl, rfl⟩)

theorem preparePostings_stepwise (leg : Exchange) (instant : Instant) :
    Stepwise (preparePostings leg instant) := by
  refine .bind (Store.findCashier_stepwise _).concealing fun _ => ?_
  refine .bind (.orFail _ _) fun cashier => ?_
  refine .bind (movement_stepwise ..) fun outward => ?_
  exact .bind (movement_stepwise ..) fun inward => .pure _

theorem recordMovement_stepwise (m : CashMovement) : Stepwise (recordMovement m) := by
  refine .bind (Store.recordTransaction_stepwise _).concealing fun _ => ?_
  refine .bind (Store.postEntry_stepwise _).concealing fun _ => ?_
  exact (Store.postEntry_stepwise _).concealing

theorem postLeg_stepwise (leg : Exchange) (instant : Instant) :
    Stepwise (postLeg leg instant) := by
  refine .bind (preparePostings_stepwise ..) fun postings => ?_
  refine .bind (recordMovement_stepwise _) fun _ => ?_
  exact .bind (recordMovement_stepwise _) fun _ => .pure postings

theorem writeLeg_stepwise (request : ExchangeRequest) (now : Instant) (p : PlannedLeg) :
    Stepwise (writeLeg request now p) := by
  refine .bind (Store.insertExchange_stepwise _).concealing fun exchange => ?_
  exact .bind (postLeg_stepwise ..) fun _ => .pure _

theorem writeLegs_stepwise (request : ExchangeRequest) (now : Instant) (plans : List PlannedLeg) :
    Stepwise (writeLegs request now plans) := by
  induction plans with
  | nil => exact .pure _
  | cons p rest ih => exact .bind (writeLeg_stepwise ..) fun _ => .bind ih fun _ => .pure _

theorem noteCommitted_stepwise (legs : List ExecutedLeg) : Stepwise (noteCommitted legs) := by
  induction legs with
  | nil => exact .pure _
  | cons leg rest ih => exact .bind (.note ..) fun _ => ih

theorem commitLegs_stepwise (request : ExchangeRequest) (plans : List PlannedLeg) :
    Stepwise (commitLegs request plans) := by
  refine .bind Store.begin_stepwise.concealing fun _ => ?_
  refine .bind .readClock fun now => ?_
  refine .bind (writeLegs_stepwise ..) fun legs => ?_
  refine .bind Store.commit_stepwise.concealing fun _ => ?_
  exact .bind (noteCommitted_stepwise legs) fun _ => .pure legs

theorem commitEach_stepwise (request : ExchangeRequest) (total : Nat) (done : List ExecutedLeg)
    (plans : List PlannedLeg) : Stepwise (commitEach request total done plans) := by
  induction plans generalizing done with
  | nil => exact .pure done
  | cons p rest ih =>
    refine .bind (.onError (commitLegs_stepwise ..) fun e => ?_) fun legs => ih _
    split
    · exact .pure _
    · exact .note ..

theorem execute_stepwise (request : ExchangeRequest) : Stepwise (execute request) := by
  unfold execute
  split
  · exact .fail _
  refine .bind (.ofExcept _) fun sourceCode => ?_
  refine .bind (.ofExcept _) fun targetCode => ?_
  refine .bind (.ofExcept _) fun _ => ?_
  refine .bind (.ofExcept _) fun _ => ?_
  refine .bind (requireCurrency_stepwise _) fun source => ?_
  refine .bind (requireCurrency_stepwise _) fun target => ?_
  refine .bind (route_stepwise ..) fun way => ?_
  refine .bind (.note ..) fun _ => ?_
  refine .bind (plan_stepwise ..) fun plans => ?_
  refine .bind .environment fun env => ?_
  split
  · exact commitLegs_stepwise ..
  · exact commitEach_stepwise ..

theorem retrieveExchange_stepwise (id : ExchangeId) : Stepwise (retrieveExchange id) :=
  .bind (Store.findExchange_stepwise id).concealing fun _ => .orFail _ _

theorem checkReference_stepwise (change : ExchangeChange) : Stepwise (checkReference change) := by
  cases change with
  | rate id =>
    exact .bind (Store.findRate_stepwise id).concealing fun _ => .bind (.orFail _ _) fun _ => .pure _
  | currencyFrom code => exact .bind (requireCurrency_stepwise code) fun _ => .pure _
  | currencyTo code => exact .bind (requireCurrency_stepwise code) fun _ => .pure _
  | _ => exact .pure _

theorem checkReferences_stepwise (changes : List ExchangeChange) :
    Stepwise (checkReferences changes) := by
  induction changes with
  | nil => exact .pure _
  | cons change rest ih => exact .bind (checkReference_stepwise change) fun _ => ih

theorem updateExchange_stepwise (id : ExchangeId) (changes : ExchangeChanges) :
    Stepwise (updateExchange id changes) := by
  refine .bind (retrieveExchange_stepwise id) fun current => ?_
  refine .bind (.ofExcept _) fun (next, applied) => ?_
  cases applied with
  | nil => exact .pure _
  | cons c rest =>
    refine .bind (checkReferences_stepwise _) fun _ => ?_
    refine .bind (Store.replaceExchange_stepwise next).concealing fun _ => ?_
    split
    · exact .bind (.note ..) fun _ => .pure _
    · exact .bind (.note ..) fun _ => .pure _

theorem deleteExchange_stepwise (id : ExchangeId) : Stepwise (deleteExchange id) := by
  refine .bind (Store.deleteExchange_stepwise id).concealing fun found => ?_
  cases found with
  | true => exact .note ..
  | false => exact .fail _

end Desk

-- ---------------------------------------------------------------------------
-- What is drafted
-- ---------------------------------------------------------------------------

theorem Store.reach_drafts (call : StoreCall) (env : Environment) (s : Session) :
    Triple (reach call) env s (fun _ s' => s'.drafts = s.drafts)
      (fun _ s' => s'.drafts = s.drafts) := by
  simp only [Triple, reach]
  cases env.faults call (s.calls.count call) with
  | none => rfl
  | some e => rfl

theorem Store.insertExchange_drafts (exchange : NewExchange) (env : Environment) (s : Session) :
    Triple (insertExchange exchange) env s
      (fun stored s' =>
        s'.drafts = { s.drafts with exchanges := s.drafts.exchanges ++ [stored] })
      (fun _ s' => s'.drafts = s.drafts) := by
  refine Triple.bind (reach_drafts _ env s) ?_
  intro _ s' hs
  rw [← hs]
  exact Triple.of_run rfl rfl

theorem Desk.findAccount_drafts (activity : Activity) (currency : CurrencyCode)
    (env : Environment) (s : Session) :
    Triple (findAccount activity currency) env s (fun _ s' => s'.drafts = s.drafts)
      (fun _ s' => s'.drafts = s.drafts) := by
  have hfind : Triple (Store.findAccount activity currency) env s
      (fun _ s' => s'.drafts = s.drafts) (fun _ s' => s'.drafts = s.drafts) :=
    Triple.bind (Store.reach_drafts _ env s) fun _ _ hs => hs
  refine Triple.bind (Triple.concealing hfind fun _ _ hs => hs) ?_
  intro found s' hs
  cases found with
  | some account => exact hs
  | none => exact hs

theorem Desk.movement_drafts (leg : Exchange) (cashier : Cashier) (direction : Direction)
    (amount : Decimal) (currency : CurrencyCode) (instant : Instant) (env : Environment)
    (s : Session) :
    Triple (movement leg cashier direction amount currency instant) env s
      (fun m s' => s'.drafts = { s.drafts with movements := s.drafts.movements ++ [m] })
      (fun _ s' => s'.drafts = s.drafts) := by
  refine Triple.bind (findAccount_drafts _ _ env s) ?_
  intro vault s₁ h₁
  refine Triple.seq (findAccount_drafts _ _ env s₁) (fun _ _ h => h.trans h₁) ?_
  intro teller s₂ h₂
  rw [← h₁, ← h₂]
  cases direction with
  | inward => exact Triple.of_run rfl rfl
  | outward => exact Triple.of_run rfl rfl

-- ---------------------------------------------------------------------------
-- Runs
-- ---------------------------------------------------------------------------

theorem Operation.perform_stepwise (op : Operation) : Stepwise op.perform := by
  cases op with
  | execute request => exact .bind (Desk.execute_stepwise request) fun _ => .pure _
  | updateExchange id changes =>
    exact .bind (Desk.updateExchange_stepwise id changes) fun _ => .pure _
  | deleteExchange id => exact Desk.deleteExchange_stepwise id
  | createRate rate => exact .bind (Desk.createRate_stepwise rate) fun _ => .pure _
  | updateRate id changes => exact .bind (Desk.updateRate_stepwise id changes) fun _ => .pure _

theorem Operation.leads (op : Operation) (env : Environment) (s : Session) :
    s.Leads (op.after env s) :=
  Triple.final (op.perform_stepwise.triple env s)

theorem run_leads (tasks : List (Environment × Operation)) (s : Session) :
    s.Leads (run tasks s) := by
  induction tasks generalizing s with
  | nil => exact .refl s
  | cons task rest ih =>
    obtain ⟨env, op⟩ := task
    exact (op.leads env s).trans (ih _)

end ExchangeDesk
