import ExchangeDesk.Proofs.Equivalence
import ExchangeDesk.Proofs.Grounds

/-!
# Exchanges without one home currency

The registry of a desk may flag currencies beside the ones of its book, so that
not exactly one home currency is known. An exchange between two sides that both
have the flag, or both do not have it, is refused then. An exchange with the flag
on one side is not: it takes that side for the home currency and asks for no
other (`execute_ambiguous`). A book by itself never gets there.
-/

namespace ExchangeDesk

open ExchangeDesk.Action

variable {env : Environment} {s s' : Session} {b : Book} {request : ExchangeRequest}
  {plans : List PlannedLeg} {e : DeskError}

/-- Both sides are known and exactly one of them has the home flag. -/
def OneFlagged (env : Environment) (b : Book) (request : ExchangeRequest) : Prop :=
  ∃ source target, Sides env b request source target ∧ source.isHome ≠ target.isHome

theorem OneFlagged.flagged (h : OneFlagged env b request) :
    0 < (flaggedCurrencies env b).length := by
  obtain ⟨source, target, ⟨⟨_, -, hknown⟩, ⟨_, -, hknown'⟩⟩, hne⟩ := h
  cases hflag : source.isHome with
  | true => exact List.length_pos_of_mem (knownCurrency_flagged hknown hflag)
  | false =>
    have hflag' : target.isHome = true := by simpa [hflag] using hne
    exact List.length_pos_of_mem (knownCurrency_flagged hknown' hflag')

theorem Accepted.oneFlagged {source target : Currency} {way : Route}
    (hflagged : (flaggedCurrencies env b).length ≠ 1)
    (h : Accepted env b request source target way plans) :
    source.isHome ≠ target.isHome ∧ ∃ p, plans = [p] := by
  have hplanned := h.planned
  cases h.routed with
  | toHome hs ht =>
    cases hplanned with
    | @toHome p => exact ⟨by simp [hs, ht], p, rfl⟩
  | fromHome hs ht =>
    cases hplanned with
    | @fromHome p => exact ⟨by simp [hs, ht], p, rfl⟩
  | cross _ _ hh => exact absurd (congrArg List.length hh) hflagged

theorem Desk.Interrupted.records (hflagged : (flaggedCurrencies env s.book).length ≠ 1)
    (h : Interrupted env request e s s') : s'.book.toRecords = s.book.toRecords := by
  obtain ⟨-, source, target, way, plans, haccepted, rfl, hcommitted, hspares, rfl⟩ := h
  obtain ⟨-, p, hp⟩ := haccepted.oneFlagged hflagged
  rename_i taken rest failed legs t u
  -- the leg that failed is the only one, so none was committed before it
  obtain rfl : taken = [] := by
    have hlength := congrArg List.length hp
    simp only [List.length_append, List.length_cons, List.length_nil] at hlength
    exact List.eq_nil_of_length_eq_zero (by omega)
  rw [Session.alarm_book]
  exact (hcommitted.of_nil.2.trans hspares).records

theorem OneFlagged.sameGrounds (h : OneFlagged env b request) {registry : List Currency}
    (hknown : ∀ code, request.Names code →
      registry.find? (·.code = code) = env.registry.find? (·.code = code)) :
    SameGrounds env { env with registry } b b request := by
  obtain ⟨source, target, hsides, hne⟩ := h
  refine ⟨hknown, fun _ _ hsides' heq => ?_, fun _ _ _ _ => rfl, fun _ _ _ _ => rfl⟩
  obtain ⟨rfl, rfl⟩ := hsides.unique hsides'
  exact absurd heq hne

theorem SameOutcome.of_alike {r r' : Except DeskError (List ExecutedLeg) × Session}
    (h : EndAlike (Session.Alike b b) True SameLegs r r') : SameOutcome r r' := by
  rcases h.cases trivial with ⟨legs, legs', t, t', rfl, rfl, hlegs, ht⟩ | ⟨e, t, t', rfl, rfl, -⟩
  · exact ⟨hlegs, ht.book_untimed, ht.sequence⟩
  · rfl

namespace Desk

/-- Where not exactly one flagged currency is known, an exchange fails and leaves the records as
they were, unless exactly one of its sides is flagged (`OneFlagged`): then flagged currencies are
not counted, and the outcome is that under any registry with the same entries for the two sides.
Without a registry it always fails. -/
theorem execute_ambiguous (hflagged : (flaggedCurrencies env s.book).length ≠ 1)
    (request : ExchangeRequest) :
    (∀ e s', execute request env s = (.error e, s') → s'.book.toRecords = s.book.toRecords) ∧
    (¬ OneFlagged env s.book request → ∃ e, (execute request env s).1 = .error e) ∧
    (OneFlagged env s.book request → 1 < (flaggedCurrencies env s.book).length ∧
      ∀ registry : List Currency, (∀ code, request.Names code →
          registry.find? (·.code = code) = env.registry.find? (·.code = code)) →
        SameOutcome (execute request env s) (execute request { env with registry } s)) ∧
    (Reachable s.book → env.registry = [] → ∃ e, (execute request env s).1 = .error e) := by
  have hseveral (h : OneFlagged env s.book request) :
      1 < (flaggedCurrencies env s.book).length :=
    Nat.lt_of_le_of_ne h.flagged (Ne.symm hflagged)
  have hfails (h : ¬ OneFlagged env s.book request) :
      ∃ e, (execute request env s).1 = .error e := by
    rcases hrun : execute request env s with ⟨e | legs, s'⟩
    · exact ⟨e, rfl⟩
    · obtain ⟨source, target, _, _, haccepted, -⟩ := (execute_spec request).ok hrun
      exact absurd ⟨source, target, haccepted.sides, (haccepted.oneFlagged hflagged).1⟩ h
  refine ⟨fun e s' hrun => ?_, hfails, fun h => ⟨hseveral h, fun registry hknown => ?_⟩,
    fun hb hregistry => hfails fun h => ?_⟩
  · rcases (execute_spec request).error hrun with hspares | hinterrupted
    · exact hspares.records
    · exact hinterrupted.records hflagged
  · have henv : env.Alike { env with registry } := ⟨rfl, rfl, rfl⟩
    exact .of_alike (execute_inStep henv (h.sameGrounds hknown) (.refl s))
  · have hone := hb.sound.oneHome
    have hmany := hseveral h
    rw [flaggedCurrencies_own hregistry] at hmany
    exact absurd hmany (Nat.not_lt.mpr hone)

/-- The registry has a second home currency. -/
def twoHomes : Environment := { registry := [⟨⟨"KES"⟩, "Kenyan Shilling", 2, none, none, true⟩] }

def dollarsIn : ExchangeRequest := { smallRequest with currencyTo := ⟨"UGX"⟩ }

theorem execute_ambiguous_twoHomes :
    (flaggedCurrencies twoHomes smallBook).length = 2 ∧ OneFlagged twoHomes smallBook dollarsIn ∧
      (execute dollarsIn twoHomes { book := smallBook }).1.isOk = true ∧
      (execute dollarsIn twoHomes { book := smallBook }).2.book.exchanges.length = 1 ∧
      SameOutcome (execute dollarsIn twoHomes { book := smallBook })
        (execute dollarsIn {} { book := smallBook }) := by
  have htwo : (flaggedCurrencies twoHomes smallBook).length = 2 := by decide +kernel
  have hdollar : CurrencyCode.parse dollarsIn.currencyFrom.text = .ok ⟨"USD"⟩ := by rfl
  have hshilling : CurrencyCode.parse dollarsIn.currencyTo.text = .ok ⟨"UGX"⟩ := by rfl
  have hsource : knownCurrency twoHomes smallBook ⟨"USD"⟩ =
      some ⟨⟨"USD"⟩, "US Dollar", 2, none, none, false⟩ := by decide +kernel
  have htarget : knownCurrency twoHomes smallBook ⟨"UGX"⟩ =
      some ⟨⟨"UGX"⟩, "Uganda Shilling", 0, none, none, true⟩ := by decide +kernel
  have hone : OneFlagged twoHomes smallBook dollarsIn :=
    ⟨_, _, ⟨⟨_, hdollar, hsource⟩, ⟨_, hshilling, htarget⟩⟩, by decide⟩
  refine ⟨htwo, hone, by decide +kernel, by decide +kernel, ?_⟩
  refine ((execute_ambiguous (s := { book := smallBook }) (by simp [htwo]) dollarsIn).2.2.1
    hone).2 [] fun code hcode => ?_
  -- neither side is the one in the registry
  rcases hcode with hcode | hcode
  · obtain rfl := Except.ok.inj (hdollar.symm.trans hcode)
    decide
  · obtain rfl := Except.ok.inj (hshilling.symm.trans hcode)
    decide

end Desk
end ExchangeDesk
