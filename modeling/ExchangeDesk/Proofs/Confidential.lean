import ExchangeDesk.Proofs.Discretion
import ExchangeDesk.Proofs.Admission
import ExchangeDesk.Proofs.Reachable

/-!
# No words of the store leave the desk

All that a desk does is discreet: its answers and the book it leaves depend on which
calls to the store fail, and not on how they fail (`attend_confidential`). Every failed
call is in the log with its cause. A call that the environment lets pass does not fail
in a reachable book, since a record is replaced after it was found and a unit of work
holds new numbers only.
-/

namespace ExchangeDesk

open ExchangeDesk.Action

variable {env : Environment} {s s' : Session}

namespace Desk

-- ---------------------------------------------------------------------------
-- Rates and currencies
-- ---------------------------------------------------------------------------

theorem requireCurrency_discreet (code : CurrencyCode) : Discreet (requireCurrency code) env s :=
  .bind (Store.findCurrency_discreet code) fun _ _ _ => .orFail _ _

theorem resolveAsOf_discreet (currency : CurrencyCode) (type : RateType) (asOf : Date) :
    Discreet (resolveAsOf currency type asOf) env s := by
  refine .bind (Store.findRateAsOf_discreet ..) fun found _ _ => ?_
  cases found with
  | some rate => exact .bind (.note (by decide)) fun _ _ _ => .pure rate
  | none => exact .fail _

theorem resolveNumberAsOf_discreet (currency : CurrencyCode) (number : Int) (asOf : Date) :
    Discreet (resolveNumberAsOf currency number asOf) env s := by
  unfold resolveNumberAsOf
  split
  · exact resolveAsOf_discreet ..
  · exact .fail _

theorem homeCurrency_discreet : Discreet homeCurrency env s := by
  refine .bind Store.homeCurrencies_discreet fun homes _ _ => ?_
  split
  · exact .pure _
  · exact .fail _

theorem retrieveRate_discreet (id : RateId) : Discreet (retrieveRate id) env s :=
  .bind (Store.findRate_discreet id) fun _ _ _ => .orFail _ _

theorem retrieveAllRates_reads : Reads retrieveAllRates env s fun _ => True :=
  Reads.concealing (Store.reach_then_reads fun _ _ => .of_run rfl trivial)

theorem createRate_discreet (rate : NewRate) : Discreet (createRate rate) env s := by
  refine .bind (.ofExcept _) fun valid _ _ => ?_
  refine .bind (requireCurrency_discreet _) fun _ _ _ => ?_
  refine .bind (Store.insertRate_discreet _) fun stored _ _ => ?_
  exact .bind (.note (by decide)) fun _ _ _ => .pure stored

theorem writeRate_discreet {id : RateId} {changes : RateChanges} {current next : Rate}
    {applied : List RateChange} {text : String}
    (h : Revised env s.book id changes current next applied) : Discreet (do
      concealing .exchangeRate (Store.replaceRate next)
      note .info .rates text
      return (next, applied)) env s := by
  have hfound : s.book.findRate next.id = some current := h.id_eq.2 ▸ h.found
  refine .bind (Store.replaceRate_discreet hfound) fun _ _ _ => ?_
  exact .bind (.note (by decide)) fun _ _ _ => .pure _

theorem updateRate_discreet (id : RateId) (changes : RateChanges) :
    Discreet (updateRate id changes) env s := by
  refine .bind (retrieveRate_discreet id) fun current s₁ h₁ => ?_
  obtain ⟨hfound, h₁⟩ := Triple.ok (retrieveRate_reads id) h₁
  refine .bind (.ofExcept _) fun (next, applied) s₂ h₂ => ?_
  obtain ⟨happly, h₂⟩ := Triple.ok Reads.ofExcept h₂
  rw [← h₁.book, ← h₂.book] at hfound
  cases applied with
  | nil => exact .pure _
  | cons c rest =>
    simp only [List.isEmpty_cons, Bool.false_eq_true, if_false]
    split
    · refine .bind (requireCurrency_discreet _) fun currency s₃ h₃ => ?_
      obtain ⟨hknown, h₃⟩ := Triple.ok (requireCurrency_reads _) h₃
      rw [← h₃.book] at hfound
      exact writeRate_discreet ⟨hfound, happly, fun _ => ⟨currency, by rw [h₃.book]; exact hknown⟩⟩
    · next hsame => exact writeRate_discreet ⟨hfound, happly, fun h => absurd h hsame⟩

-- ---------------------------------------------------------------------------
-- Planning
-- ---------------------------------------------------------------------------

theorem route_discreet (source target : Currency) : Discreet (route source target) env s := by
  unfold route
  split
  · exact .pure _
  · exact .pure _
  · exact .bind homeCurrency_discreet fun _ _ _ => .pure _
  · exact .bind homeCurrency_discreet fun _ _ _ => .fail _

theorem planToHome_discreet (source home : CurrencyCode) (amount : Decimal) (date : Date) :
    Discreet (planToHome source home amount date) env s :=
  .bind (resolveAsOf_discreet ..) fun _ _ _ => .bind (.ofExcept _) fun _ _ _ => .pure _

theorem planFromHome_discreet (home target : CurrencyCode) (amount : Decimal) (date : Date) :
    Discreet (planFromHome home target amount date) env s := by
  refine .bind (resolveAsOf_discreet ..) fun rate _ _ => ?_
  refine .settings (.bind (.ofExcept _) fun _ _ _ => .pure _) fun env' he => ?_
  rw [he.rateScale]

theorem plan_discreet (way : Route) (source target : CurrencyCode) (amount : Decimal)
    (date : Date) : Discreet (plan way source target amount date) env s := by
  cases way with
  | toHome => exact .bind (planToHome_discreet ..) fun _ _ _ => .pure _
  | fromHome => exact .bind (planFromHome_discreet ..) fun _ _ _ => .pure _
  | cross home =>
    refine .bind (planToHome_discreet ..) fun _ _ _ => ?_
    exact .bind (planFromHome_discreet ..) fun _ _ _ => .pure _

theorem prepare_discreet (request : ExchangeRequest) : Discreet (prepare request) env s := by
  unfold prepare
  split
  · exact .fail _
  refine .bind (.ofExcept _) fun _ _ _ => ?_
  refine .bind (.ofExcept _) fun _ _ _ => ?_
  refine .bind (.ofExcept _) fun _ _ _ => ?_
  refine .bind (.ofExcept _) fun _ _ _ => ?_
  refine .bind (requireCurrency_discreet _) fun source _ _ => ?_
  refine .bind (requireCurrency_discreet _) fun target _ _ => ?_
  refine .bind (route_discreet source target) fun way _ _ => ?_
  exact .bind (.note (by decide)) fun _ _ _ => plan_discreet ..

-- ---------------------------------------------------------------------------
-- Posting
-- ---------------------------------------------------------------------------

theorem findAccount_discreet (activity : Activity) (currency : CurrencyCode) :
    Discreet (findAccount activity currency) env s :=
  .bind (Store.findAccount_discreet ..) fun _ _ _ => .bind (.orFail _ _) fun _ _ _ => .pure _

theorem movement_discreet (leg : Exchange) (cashier : Cashier) (direction : Direction)
    (amount : Decimal) (currency : CurrencyCode) (instant : Instant) :
    Discreet (movement leg cashier direction amount currency instant) env s := by
  refine .bind (findAccount_discreet ..) fun vault _ _ => ?_
  refine .bind (findAccount_discreet ..) fun teller _ _ => ?_
  refine .bind Silent.drawSequence.discreet fun _ _ _ => ?_
  exact .bind (Silent.draftMovement _).discreet fun _ _ _ => .pure _

theorem preparePostings_discreet (leg : Exchange) (instant : Instant) :
    Discreet (preparePostings leg instant) env s := by
  refine .bind (Store.findCashier_discreet _) fun _ _ _ => ?_
  refine .bind (.orFail _ _) fun cashier _ _ => ?_
  refine .bind (movement_discreet ..) fun outward _ _ => ?_
  exact .bind (movement_discreet ..) fun inward _ _ => .pure _

theorem recordMovement_discreet (m : CashMovement) : Discreet (recordMovement m) env s := by
  refine .bind (Store.recordTransaction_discreet _) fun _ _ _ => ?_
  refine .bind (Store.postEntry_discreet _) fun _ _ _ => ?_
  exact Store.postEntry_discreet _

theorem postLeg_discreet (leg : Exchange) (instant : Instant) :
    Discreet (postLeg leg instant) env s := by
  refine .bind (preparePostings_discreet ..) fun postings _ _ => ?_
  refine .bind (recordMovement_discreet _) fun _ _ _ => ?_
  exact .bind (recordMovement_discreet _) fun _ _ _ => .pure postings

-- ---------------------------------------------------------------------------
-- Committing
-- ---------------------------------------------------------------------------

theorem writeLeg_discreet (request : ExchangeRequest) (now : Instant) (p : PlannedLeg) :
    Discreet (writeLeg request now p) env s := by
  refine .bind (Store.insertExchange_discreet _) fun exchange _ _ => ?_
  exact .bind (postLeg_discreet ..) fun _ _ _ => .pure _

theorem writeLegs_discreet (request : ExchangeRequest) (now : Instant) (plans : List PlannedLeg) :
    Discreet (writeLegs request now plans) env s := by
  induction plans generalizing s with
  | nil => exact .pure _
  | cons p rest ih =>
    exact .bind (writeLeg_discreet ..) fun _ _ _ => .bind ih fun _ _ _ => .pure _

theorem noteCommitted_discreet (legs : List ExecutedLeg) : Discreet (noteCommitted legs) env s := by
  induction legs generalizing s with
  | nil => exact .pure _
  | cons leg rest ih => exact .bind (.note (by decide)) fun _ _ _ => ih

/-- Discreet because the numbers of the legs were drawn in this unit of work: the book does not
refuse them. -/
theorem commitLegs_discreet (hb : Reachable s.book) (request : ExchangeRequest)
    (plans : List PlannedLeg) : Discreet (commitLegs request plans) env s := by
  refine .bind Store.begin_discreet fun _ s₁ h₁ => ?_
  obtain ⟨_, rfl, h₁⟩ := Triple.ok Store.begin_writes.concealing h₁
  refine .bind Silent.readClock.discreet fun now s₂ h₂ => ?_
  obtain ⟨-, rfl⟩ := Prod.mk.inj h₂
  refine .bind (writeLegs_discreet request now plans) fun legs s₃ h₃ => ?_
  obtain ⟨hwritten, h₃⟩ := Triple.ok (writeLegs_triple request now plans) h₃
  simp only [h₁.book, h₁.sequence] at hwritten
  obtain ⟨after, hcommit⟩ : ∃ after, s₃.book.commit s₃.staged = .ok after := by
    refine ⟨_, Book.commit_ok.mpr ⟨?_, rfl⟩⟩
    simpa [h₃.book, h₃.staged, Session.write, h₁.book, h₁.staged, Staged.addLegs,
      Book.findExchange] using hwritten.absent hb
  refine .bind (Store.commit_discreet hcommit) fun _ _ _ => ?_
  exact .bind (noteCommitted_discreet legs) fun _ _ _ => .pure legs

theorem commitEach_discreet (hb : Reachable s.book) (request : ExchangeRequest) (total : Nat)
    (done : List ExecutedLeg) (plans : List PlannedLeg) :
    Discreet (commitEach request total done plans) env s := by
  induction plans generalizing s done with
  | nil => exact .pure _
  | cons p rest ih =>
    refine .bind (.onError (commitLegs_discreet hb request [p]) fun e t => ?_) fun legs s₁ h₁ => ?_
    · split
      · exact .pure _
      · exact .note (by decide)
    · have hcommitted (handler : DeskError → Action DeskError Unit) :
          Triple (onError (commitLegs request [p]) handler) env s
            (fun legs s' => Committed request [p] legs s s') (fun _ _ => True) :=
        Triple.onError (commitLegs_triple request [p]) fun _ _ _ => trivial
      exact ih (hb.committed ((hcommitted _).ok h₁)) _

theorem settle_discreet (hb : Reachable s.book) (request : ExchangeRequest)
    (plans : List PlannedLeg) : Discreet (settle request plans) env s := by
  refine .settings ?_ fun env' he => ?_
  · cases env.atomicity with
    | allLegs => exact commitLegs_discreet hb request plans
    | perLeg => exact commitEach_discreet hb request _ _ plans
  · rw [he.atomicity]

theorem execute_discreet (hb : Reachable s.book) (request : ExchangeRequest) :
    Discreet (execute request) env s := by
  rw [execute_eq]
  refine .bind (prepare_discreet request) fun plans s₁ h₁ => ?_
  obtain ⟨-, h₁⟩ := Triple.ok (prepare_reads request) h₁
  exact settle_discreet (h₁.book ▸ hb) request plans

-- ---------------------------------------------------------------------------
-- Records
-- ---------------------------------------------------------------------------

theorem retrieveExchange_discreet (id : ExchangeId) : Discreet (retrieveExchange id) env s :=
  .bind (Store.findExchange_discreet id) fun _ _ _ => .orFail _ _

theorem checkReference_discreet (c : ExchangeChange) : Discreet (checkReference c) env s := by
  cases c with
  | rate id =>
    refine .bind (Store.findRate_discreet id) fun _ _ _ => ?_
    exact .bind (.orFail _ _) fun _ _ _ => .pure _
  | currencyFrom code => exact .bind (requireCurrency_discreet code) fun _ _ _ => .pure _
  | currencyTo code => exact .bind (requireCurrency_discreet code) fun _ _ _ => .pure _
  | _ => exact .pure _

theorem checkReferences_discreet (changes : List ExchangeChange) :
    Discreet (checkReferences changes) env s := by
  induction changes generalizing s with
  | nil => exact .pure _
  | cons c rest ih => exact .bind (checkReference_discreet c) fun _ _ _ => ih

theorem updateExchange_discreet (id : ExchangeId) (changes : ExchangeChanges) :
    Discreet (updateExchange id changes) env s := by
  refine .bind (retrieveExchange_discreet id) fun current s₁ h₁ => ?_
  obtain ⟨hfound, h₁⟩ := Triple.ok (retrieveExchange_reads id) h₁
  refine .bind (.ofExcept _) fun (next, applied) s₂ hrun => ?_
  obtain ⟨happly, h₂⟩ := Triple.ok Reads.ofExcept hrun
  cases applied with
  | nil => exact .pure _
  | cons c rest =>
    refine .bind (checkReferences_discreet (c :: rest)) fun _ s₃ h₃ => ?_
    obtain ⟨hreferenced, h₃⟩ := Triple.ok (checkReferences_reads (c :: rest)) h₃
    rw [h₂.book, h₁.book] at hreferenced
    have hcorrected : Corrected env s.book id changes current next (c :: rest) :=
      ⟨hfound, happly, hreferenced⟩
    have hfound : s₃.book.findExchange next.id = some current := by
      rw [h₃.book, h₂.book, h₁.book, hcorrected.id_eq.2]
      exact hcorrected.found
    refine .bind (Store.replaceExchange_discreet hfound) fun _ _ _ => ?_
    split
    · exact .bind (.note (by decide)) fun _ _ _ => .pure _
    · exact .bind (.note (by decide)) fun _ _ _ => .pure _

theorem deleteExchange_discreet (id : ExchangeId) : Discreet (deleteExchange id) env s := by
  refine .bind (Store.deleteExchange_discreet id) fun _ _ _ => ?_
  split
  · exact .note (by decide)
  · exact .fail _

theorem retrieveAllExchanges_reads : Reads retrieveAllExchanges env s fun _ => True :=
  Reads.concealing (Store.reach_then_reads fun _ _ => .of_run rfl trivial)

theorem retrieveCashierExchanges_discreet (staff : StaffId) (currency : CurrencyCode) :
    Discreet (retrieveCashierExchanges staff currency) env s :=
  .bind Store.listExchanges_discreet fun _ _ _ => .pure _

end Desk

-- ---------------------------------------------------------------------------
-- A day at the desk
-- ---------------------------------------------------------------------------

inductive DeskCall where
  | execute (request : ExchangeRequest)
  | updateExchange (id : ExchangeId) (changes : ExchangeChanges)
  | deleteExchange (id : ExchangeId)
  | retrieveExchange (id : ExchangeId)
  | retrieveAllExchanges
  | retrieveCashierExchanges (staff : StaffId) (currency : CurrencyCode)
  | createRate (rate : NewRate)
  | updateRate (id : RateId) (changes : RateChanges)
  | retrieveRate (id : RateId)
  | retrieveAllRates
  | resolveAsOf (currency : CurrencyCode) (type : RateType) (date : Date)
  | resolveNumberAsOf (currency : CurrencyCode) (number : Int) (date : Date)
  deriving DecidableEq, Repr

inductive Reply where
  | done
  | legs (legs : List ExecutedLeg)
  | exchanges (exchanges : List Exchange)
  | exchangeChanges (changes : List ExchangeChange)
  | rates (rates : List Rate)
  | rateChanges (rate : Rate) (changes : List RateChange)
  deriving DecidableEq, Repr

def DeskCall.perform : DeskCall → Action DeskError Reply
  | .execute request => return .legs (← Desk.execute request)
  | .updateExchange id changes => return .exchangeChanges (← Desk.updateExchange id changes)
  | .deleteExchange id => do
    Desk.deleteExchange id
    return .done
  | .retrieveExchange id => return .exchanges [← Desk.retrieveExchange id]
  | .retrieveAllExchanges => return .exchanges (← Desk.retrieveAllExchanges)
  | .retrieveCashierExchanges staff currency =>
    return .exchanges (← Desk.retrieveCashierExchanges staff currency)
  | .createRate rate => return .rates [← Desk.createRate rate]
  | .updateRate id changes => do
    let (rate, applied) ← Desk.updateRate id changes
    return .rateChanges rate applied
  | .retrieveRate id => return .rates [← Desk.retrieveRate id]
  | .retrieveAllRates => return .rates (← Desk.retrieveAllRates)
  | .resolveAsOf currency type date => return .rates [← Desk.resolveAsOf currency type date]
  | .resolveNumberAsOf currency number date =>
    return .rates [← Desk.resolveNumberAsOf currency number date]

/-- One call after the other, each in an environment of its own; all the answers and
the session in the end. -/
def attend : List (Environment × DeskCall) → Session → List (Except DeskError Reply) × Session
  | [], s => ([], s)
  | (env, call) :: rest, s =>
    let (answer, s) := call.perform env s
    let (answers, s) := attend rest s
    (answer :: answers, s)

namespace DeskCall

theorem perform_discreet (hb : Reachable s.book) (call : DeskCall) :
    Discreet call.perform env s := by
  cases call with
  | execute request => exact .bind (Desk.execute_discreet hb request) fun _ _ _ => .pure _
  | updateExchange id changes =>
    exact .bind (Desk.updateExchange_discreet id changes) fun _ _ _ => .pure _
  | deleteExchange id => exact .bind (Desk.deleteExchange_discreet id) fun _ _ _ => .pure _
  | retrieveExchange id => exact .bind (Desk.retrieveExchange_discreet id) fun _ _ _ => .pure _
  | retrieveAllExchanges => exact .bind Store.listExchanges_discreet fun _ _ _ => .pure _
  | retrieveCashierExchanges staff currency =>
    exact .bind (Desk.retrieveCashierExchanges_discreet staff currency) fun _ _ _ => .pure _
  | createRate rate => exact .bind (Desk.createRate_discreet rate) fun _ _ _ => .pure _
  | updateRate id changes => exact .bind (Desk.updateRate_discreet id changes) fun _ _ _ => .pure _
  | retrieveRate id => exact .bind (Desk.retrieveRate_discreet id) fun _ _ _ => .pure _
  | retrieveAllRates => exact .bind Store.listRates_discreet fun _ _ _ => .pure _
  | resolveAsOf currency type date =>
    exact .bind (Desk.resolveAsOf_discreet currency type date) fun _ _ _ => .pure _
  | resolveNumberAsOf currency number date =>
    exact .bind (Desk.resolveNumberAsOf_discreet currency number date) fun _ _ _ => .pure _

theorem final_of_discard {α β : Type} {x : Action DeskError α} {f : α → Action DeskError β}
    (hf : ∀ a s, (f a env s).2 = s) : ((x >>= f) env s).2 = (x env s).2 := by
  rcases h : x env s with ⟨e | a, t⟩
  · rw [run_bind_error h]
  · rw [run_bind_value h, hf]

theorem final_of_form {α β γ : Type} {x : Action DeskError α} {f : α → Action DeskError β}
    {g : α → Action DeskError γ} (hf : ∀ a s, (f a env s).2 = s) (hg : ∀ a s, (g a env s).2 = s) :
    ((x >>= f) env s).2 = ((x >>= g) env s).2 :=
  (final_of_discard hf).trans (final_of_discard hg).symm

theorem final_of_reads {α β : Type} {x : Action DeskError α} {f : α → Action DeskError β}
    {P : α → Prop} (hx : Reads x env s P) (hf : ∀ a s, (f a env s).2 = s) :
    s.Agrees ((x >>= f) env s).2 := by
  rw [final_of_discard hf]
  exact Triple.final (Triple.mono hx (fun _ _ h => h.2) fun _ _ h => h)

theorem perform_effect (call : DeskCall) : Effect env s (call.perform env s).2 := by
  have hop (op : Operation) (h : (call.perform env s).2 = op.after env s) :
      Effect env s (call.perform env s).2 := h ▸ op.after_effect env s
  cases call with
  | execute request =>
    exact hop (.execute request) (final_of_form (fun _ _ => rfl) fun _ _ => rfl)
  | updateExchange id changes =>
    exact hop (.updateExchange id changes) (final_of_form (fun _ _ => rfl) fun _ _ => rfl)
  | deleteExchange id => exact hop (.deleteExchange id) (final_of_discard fun _ _ => rfl)
  | createRate rate =>
    exact hop (.createRate rate) (final_of_form (fun _ _ => rfl) fun _ _ => rfl)
  | updateRate id changes =>
    exact hop (.updateRate id changes) (final_of_form (fun _ _ => rfl) fun _ _ => rfl)
  | retrieveExchange id =>
    exact .of_agrees (final_of_reads (Desk.retrieveExchange_reads id) fun _ _ => rfl)
  | retrieveAllExchanges =>
    exact .of_agrees (final_of_reads Desk.retrieveAllExchanges_reads fun _ _ => rfl)
  | retrieveCashierExchanges staff currency =>
    refine .of_agrees (final_of_reads (P := fun _ => True) ?_ fun _ _ => rfl)
    exact Reads.bind Desk.retrieveAllExchanges_reads fun _ _ _ _ => Reads.pure trivial
  | retrieveRate id =>
    exact .of_agrees (final_of_reads (Desk.retrieveRate_reads id) fun _ _ => rfl)
  | retrieveAllRates =>
    exact .of_agrees (final_of_reads Desk.retrieveAllRates_reads fun _ _ => rfl)
  | resolveAsOf currency type date =>
    exact .of_agrees (final_of_reads (Desk.resolveAsOf_reads currency type date) fun _ _ => rfl)
  | resolveNumberAsOf currency number date =>
    refine .of_agrees (final_of_reads (P := fun _ => True) ?_ fun _ _ => rfl)
    unfold Desk.resolveNumberAsOf
    split
    · exact (Desk.resolveAsOf_reads currency _ date).mono fun _ _ => trivial
    · exact Reads.fail

end DeskCall

variable {tasks tasks' : List (Environment × DeskCall)}

theorem attend_reachable (hb : Reachable s.book) : Reachable (attend tasks s).2.book := by
  induction tasks generalizing s with
  | nil => exact hb
  | cons task rest ih => exact ih (hb.effect task.2.perform_effect)

/-- The same calls in environments in which the same of them fail. -/
def SameFailures : List (Environment × DeskCall) → List (Environment × DeskCall) → Prop :=
  List.Forall₂ fun task task' => task.1.FailsLike task'.1 ∧ task'.2 = task.2

theorem attend_alike (hb : Reachable s.book) (h : SameFailures tasks tasks')
    (hs : s'.redacted = s.redacted) : (attend tasks' s').1 = (attend tasks s).1 ∧
      (attend tasks' s').2.redacted = (attend tasks s).2.redacted := by
  induction h generalizing s s' with
  | nil => exact ⟨rfl, hs⟩
  | @cons task task' rest rest' hfirst hrest ih =>
    obtain ⟨env, call⟩ := task
    obtain ⟨env', call'⟩ := task'
    obtain ⟨he, rfl⟩ := hfirst
    have hdiscreet : Discreet call'.perform env s := call'.perform_discreet hb
    have halike := hdiscreet.alike env' s' he hs
    obtain ⟨hanswers, hsession⟩ := ih (hb.effect call'.perform_effect) (halike.session trivial)
    exact ⟨congrArg₂ List.cons (halike.answer trivial) hanswers, hsession⟩

/-- Calls of which the same ones fail (`SameFailures`), by whatever errors and in whatever words,
get the same answers and leave the same book and, but for the words of the store, the same session.
Each call that fails is logged once as an error with its cause (`Reports`). -/
theorem attend_confidential (hb : Reachable s.book) (h : SameFailures tasks tasks') :
    (attend tasks' s).1 = (attend tasks s).1 ∧
    (attend tasks' s).2.book = (attend tasks s).2.book ∧
    (attend tasks' s).2.redacted = (attend tasks s).2.redacted ∧
    ∀ (env : Environment) (call : DeskCall),
      Session.Reports env (attend tasks s).2 (call.perform env (attend tasks s).2).2 := by
  obtain ⟨hanswers, hsession⟩ := attend_alike hb h rfl
  have hbook : (attend tasks' s).2.redacted.book = (attend tasks s).2.redacted.book := by
    rw [hsession]
  refine ⟨hanswers, hbook, hsession, fun env call => ?_⟩
  exact (call.perform_discreet (attend_reachable hb)).reports

/-- Calls of one kind fail from the `n`-th on. -/
def failingFrom (call : StoreCall) (n : Nat) (cause : StoreError) : Environment :=
  { faults := fun c m => if c = call ∧ n ≤ m then some cause else none }

theorem failingFrom_failsLike (call : StoreCall) (n : Nat) (cause cause' : StoreError) :
    (failingFrom call n cause).FailsLike (failingFrom call n cause') := by
  refine ⟨fun c m => ?_, rfl, rfl, rfl, rfl⟩
  simp only [failingFrom]
  split <;> rfl

/-- An exchange that the store does not commit and one that it does, a correction that it
does not take, and a record that nobody has. -/
def hardDay (cause : StoreError) : List (Environment × DeskCall) :=
  [(failingFrom .commit 0 cause, .execute smallRequest),
    (failingFrom .commit 2 cause, .execute smallRequest),
    (failingFrom .replaceExchange 0 cause, .updateExchange ⟨3⟩ { amountGiven := some (.whole 5) }),
    (failingFrom .findExchange 9 cause, .retrieveExchange ⟨9⟩)]

theorem attend_confidential_hardDay :
    let offline := attend (hardDay (.unavailable "offline")) { book := smallBook }
    let duplicate := attend (hardDay (.conflict "duplicate key")) { book := smallBook }
    Reachable smallBook ∧
      SameFailures (hardDay (.unavailable "offline")) (hardDay (.conflict "duplicate key")) ∧
      offline.1.map (fun answer => (answer.map fun _ => ())) =
        [.error (.dataIntegrity .forexExchange), .ok (), .error (.dataIntegrity .forexExchange),
          .error (.exchangeNotFound ⟨9⟩)] ∧
      (duplicate.2.log.filter (·.source = .store)).map (·.text) =
        ["forex exchange store failure: conflicting write: duplicate key",
          "forex exchange store failure: conflicting write: duplicate key"] ∧
      duplicate.1 = offline.1 ∧ duplicate.2.book = offline.2.book := by
  intro offline duplicate
  have hreachable : Reachable smallBook := .of_snapshot smallBook_loaded
  have hsame : SameFailures (hardDay (.unavailable "offline"))
      (hardDay (.conflict "duplicate key")) := by
    simp only [SameFailures, hardDay, List.forall₂_cons, List.forall₂_nil_left_iff, and_true,
      failingFrom_failsLike]
  have hconfidential := attend_confidential (s := { book := smallBook }) hreachable hsame
  refine ⟨hreachable, hsame, by decide +kernel, by decide +kernel, hconfidential.1,
    hconfidential.2.1⟩

end ExchangeDesk
