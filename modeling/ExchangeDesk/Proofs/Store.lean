import ExchangeDesk.Desk.Store
import ExchangeDesk.Proofs.Triple

/-!
# What the calls of a store leave behind

A call counts itself, may fail and says so in the log. Sessions that differ in
nothing else but in drafts agree (`Session.Agrees`). A call that reads answers
from the book and leaves a session that agrees with the one before (`Reads`); a
call that writes leaves one that agrees with the written session, and if it
fails, with the session before it.
-/

namespace ExchangeDesk

open ExchangeDesk.Action

-- ---------------------------------------------------------------------------
-- Sessions that agree
-- ---------------------------------------------------------------------------

def LogLine.isAlarm (l : LogLine) : Bool := l.level = .error && l.source = .engine

def Session.alarms (s : Session) : List LogLine := s.log.filter (·.isAlarm)

/-- The second session is the first one but for drafts, the calls made and the lines
logged, no alarm among them. -/
structure Session.Agrees (s s' : Session) : Prop where
  book : s'.book = s.book
  staged : s'.staged = s.staged
  sequence : s'.sequence = s.sequence
  readings : s'.readings = s.readings
  alarms : s'.alarms = s.alarms

namespace Session.Agrees

variable {s s' s'' : Session}

theorem refl (s : Session) : s.Agrees s := ⟨rfl, rfl, rfl, rfl, rfl⟩

theorem trans (h : s.Agrees s') (h' : s'.Agrees s'') : s.Agrees s'' :=
  ⟨h'.book.trans h.book, h'.staged.trans h.staged, h'.sequence.trans h.sequence,
    h'.readings.trans h.readings, h'.alarms.trans h.alarms⟩

theorem logged (h : s.Agrees s') {l : LogLine} (hl : l.isAlarm = false) :
    s.Agrees { s' with log := s'.log ++ [l] } :=
  { h with alarms := by simpa [Session.alarms, hl] using h.alarms }

theorem note {ε β : Type} {f : Unit → Action ε β} {env : Environment} {level : LogLevel}
    {source : LogSource} {text : String} {Q : β → Session → Prop} {E : ε → Session → Prop}
    (h : s.Agrees s') (hl : LogLine.isAlarm ⟨level, source, text⟩ = false)
    (hf : ∀ s'', s.Agrees s'' → Triple (f ()) env s'' Q E) :
    Triple (note level source text >>= f) env s' Q E := by
  refine Triple.bind (Triple.note (Q := fun _ s'' => s.Agrees s'') (h.logged hl)) ?_
  rintro _ s'' h''
  exact hf s'' h''

theorem draw (h : s.Agrees s') :
    Session.Agrees { s with sequence := s.sequence + 1 }
      { s' with sequence := s'.sequence + 1 } :=
  { h with sequence := by rw [h.sequence] }

theorem stage (h : s.Agrees s') (f : Staged → Staged) :
    Session.Agrees { s with staged := f s.staged } { s' with staged := f s'.staged } :=
  { h with staged := by rw [h.staged] }

theorem withBook (h : s.Agrees s') (b : Book) :
    Session.Agrees { s with book := b } { s' with book := b } :=
  { h with book := rfl }

end Session.Agrees

/-- The records of the book are as they were. Numbers may have been drawn, and
the unit of work may have changed. -/
structure Session.Spares (s s' : Session) : Prop where
  book : ∃ n, s.book.nextExchange ≤ n ∧ s'.book = { s.book with nextExchange := n }
  sequence : s.sequence ≤ s'.sequence
  alarms : s'.alarms = s.alarms

namespace Session

variable {s s' s'' : Session}

theorem Agrees.spares (h : s.Agrees s') : s.Spares s' :=
  ⟨⟨_, Nat.le_refl _, h.book⟩, Nat.le_of_eq h.sequence.symm, h.alarms⟩

namespace Spares

theorem trans (h : s.Spares s') (h' : s'.Spares s'') : s.Spares s'' := by
  obtain ⟨n, hn, hb⟩ := h.book
  obtain ⟨m, hm, hb'⟩ := h'.book
  rw [hb] at hm hb'
  exact ⟨⟨m, Nat.le_trans hn hm, hb'⟩, Nat.le_trans h.sequence h'.sequence,
    h'.alarms.trans h.alarms⟩

theorem draw (s : Session) : s.Spares { s with sequence := s.sequence + 1 } :=
  ⟨⟨_, Nat.le_refl _, rfl⟩, Nat.le_succ _, rfl⟩

theorem stage (s : Session) (staged : Staged) : s.Spares { s with staged } :=
  ⟨⟨_, Nat.le_refl _, rfl⟩, Nat.le_refl _, rfl⟩

theorem read (s : Session) : s.Spares { s with readings := s.readings + 1 } :=
  ⟨⟨_, Nat.le_refl _, rfl⟩, Nat.le_refl _, rfl⟩

theorem number (s : Session) : s.Spares { s with book.nextExchange := s.book.nextExchange + 1 } :=
  ⟨⟨_, Nat.le_succ _, rfl⟩, Nat.le_refl _, rfl⟩

theorem records (h : s.Spares s') : s'.book.toRecords = s.book.toRecords := by
  obtain ⟨n, -, hb⟩ := h.book
  rw [hb]

end Spares
end Session

/-- The setup of a book: what operations of the desk never change. -/
structure Book.SameSetup (b b' : Book) : Prop where
  currencies : b'.currencies = b.currencies
  cashiers : b'.cashiers = b.cashiers
  accounts : b'.accounts = b.accounts

namespace Book.SameSetup

variable {b b' b'' : Book}

theorem refl (b : Book) : b.SameSetup b := ⟨rfl, rfl, rfl⟩

theorem trans (h : b.SameSetup b') (h' : b'.SameSetup b'') : b.SameSetup b'' :=
  ⟨h'.currencies.trans h.currencies, h'.cashiers.trans h.cashiers, h'.accounts.trans h.accounts⟩

end Book.SameSetup

-- ---------------------------------------------------------------------------
-- Actions that only read
-- ---------------------------------------------------------------------------

/-- Whatever the action answers, it changes nothing, and a value is as `P`
says. -/
def Reads {ε α : Type} (x : Action ε α) (env : Environment) (s : Session) (P : α → Prop) : Prop :=
  Triple x env s (fun a s' => P a ∧ s.Agrees s') (fun _ s' => s.Agrees s')

namespace Reads

variable {ε α β : Type} {x : Action ε α} {f : α → Action ε β} {env : Environment} {s : Session}
  {a : α} {P Q : α → Prop} {R : β → Prop}

theorem pure (h : P a) : Reads (Pure.pure a : Action ε α) env s P := ⟨h, .refl s⟩

theorem of_run (hx : x env s = (.ok a, s)) (h : P a) : Reads x env s P :=
  Triple.of_run hx ⟨h, .refl s⟩

theorem fail {e : ε} : Reads (fail e : Action ε α) env s P := Session.Agrees.refl s

theorem mono (h : Reads x env s P) (hpq : ∀ a, P a → Q a) : Reads x env s Q :=
  Triple.mono h (fun _ _ ha => ⟨hpq _ ha.1, ha.2⟩) (fun _ _ he => he)

theorem bind (hx : Reads x env s P) (hf : ∀ a s', P a → s.Agrees s' → Reads (f a) env s' R) :
    Reads (x >>= f) env s R := by
  refine Triple.bind hx ?_
  rintro a s' ⟨ha, hs⟩
  exact Triple.mono (hf a s' ha hs) (fun _ _ hb => ⟨hb.1, hs.trans hb.2⟩)
    (fun _ _ he => hs.trans he)

theorem before {s₀ : Session} {Q : β → Session → Prop} {E : ε → Session → Prop} (h₀ : s.Agrees s₀)
    (hx : Reads x env s₀ P) (he : ∀ e s', s.Agrees s' → E e s')
    (hf : ∀ a s', P a → s.Agrees s' → Triple (f a) env s' Q E) :
    Triple (x >>= f) env s₀ Q E := by
  have hx : Triple x env s₀ (fun a s' => P a ∧ s.Agrees s') E :=
    Triple.mono hx (fun _ _ ha => ⟨ha.1, h₀.trans ha.2⟩) (fun e s' h => he e s' (h₀.trans h))
  exact Triple.bind hx fun a s' ha => hf a s' ha.1 ha.2

theorem environment : Reads (environment : Action ε Environment) env s (· = env) :=
  Triple.environment ⟨rfl, .refl s⟩

theorem orFail {e : ε} {o : Option α} : Reads (orFail e o) env s (o = some ·) :=
  Triple.orFail (fun _ ha => ⟨ha, .refl s⟩) (fun _ => .refl s)

theorem ofExcept {o : Except ε α} : Reads (ofExcept o) env s (o = .ok ·) :=
  Triple.ofExcept (fun _ ha => ⟨ha, .refl s⟩) (fun _ _ => .refl s)

theorem note {level : LogLevel} {source : LogSource} {text : String}
    (hl : LogLine.isAlarm ⟨level, source, text⟩ = false) :
    Reads (note level source text : Action ε Unit) env s fun _ => True :=
  Triple.note ⟨trivial, (Session.Agrees.refl s).logged hl⟩

theorem concealing {resource : Resource} {x : Action StoreError α} (h : Reads x env s P) :
    Reads (concealing resource x) env s P :=
  Triple.concealing h fun _ _ hs => hs.logged rfl

end Reads

-- ---------------------------------------------------------------------------
-- Actions that write
-- ---------------------------------------------------------------------------

/-- An error changes nothing; a value and the session written with it are as `P`
says. -/
def Writes {ε α : Type} (x : Action ε α) (env : Environment) (s : Session)
    (P : α → Session → Prop) : Prop :=
  Triple x env s (fun a s' => ∃ t, P a t ∧ t.Agrees s') (fun _ s' => s.Agrees s')

namespace Writes

theorem concealing {α : Type} {x : Action StoreError α} {env : Environment} {s : Session}
    {P : α → Session → Prop} {resource : Resource} (h : Writes x env s P) :
    Writes (concealing resource x) env s P :=
  Triple.concealing h fun _ _ hs => hs.logged rfl

end Writes

namespace Store

variable {env : Environment} {s : Session}

theorem reach_reads (call : StoreCall) : Reads (reach call) env s fun _ => True := by
  have hs : s.Agrees { s with calls := s.calls ++ [call] } := ⟨rfl, rfl, rfl, rfl, rfl⟩
  cases hf : env.faults call (s.calls.count call) with
  | some e => exact Triple.of_run_error (e := e) (by simp [reach, hf]) hs
  | none => exact Triple.of_run (a := ()) (by simp [reach, hf]) ⟨trivial, hs⟩

-- ---------------------------------------------------------------------------
-- Calls that read
-- ---------------------------------------------------------------------------

theorem reach_then_reads {α : Type} {call : StoreCall} {x : Action StoreError α} {P : α → Prop}
    (hx : ∀ s', s.Agrees s' → Reads x env s' P) : Reads (do reach call; x) env s P :=
  Reads.bind (reach_reads call) fun _ s' _ hs => hx s' hs

theorem findRateAsOf_reads (currency : CurrencyCode) (type : RateType) (date : Date) :
    Reads (findRateAsOf currency type date) env s (· = s.book.findRateAsOf currency type date) :=
  reach_then_reads fun _ hs => .of_run rfl (by rw [hs.book])

theorem findRate_reads (id : RateId) : Reads (findRate id) env s (· = s.book.findRate id) :=
  reach_then_reads fun _ hs => .of_run rfl (by rw [hs.book])

theorem findCurrency_reads (code : CurrencyCode) :
    Reads (findCurrency code) env s
      (· = (env.registry.find? (·.code = code)).or (s.book.findCurrency code)) :=
  reach_then_reads fun _ hs => .of_run rfl (by rw [hs.book])

theorem homeCurrencies_reads :
    Reads homeCurrencies env s (· = s.book.homeCurrencies ++ env.registry.filter (·.isHome)) :=
  reach_then_reads fun _ hs => .of_run rfl (by rw [hs.book])

theorem findCashier_reads (staff : StaffId) :
    Reads (findCashier staff) env s (· = s.book.findCashier staff) :=
  reach_then_reads fun _ hs => .of_run rfl (by rw [hs.book])

theorem findAccount_reads (activity : Activity) (currency : CurrencyCode) :
    Reads (findAccount activity currency) env s (· = s.book.findAccount activity currency) :=
  reach_then_reads fun _ hs => .of_run rfl (by rw [hs.book])

theorem findExchange_reads (id : ExchangeId) :
    Reads (findExchange id) env s (· = s.book.findExchange id) :=
  reach_then_reads fun _ hs => .of_run rfl (by rw [hs.book])

-- ---------------------------------------------------------------------------
-- Calls that write
-- ---------------------------------------------------------------------------

theorem reach_then_writes {α : Type} {call : StoreCall} {x : Action StoreError α}
    {P : α → Session → Prop} (hx : ∀ s', s.Agrees s' → Triple x env s'
      (fun a s'' => ∃ t, P a t ∧ t.Agrees s'') (fun _ s'' => s'.Agrees s'')) :
    Writes (do reach call; x) env s P := by
  refine Triple.bind (reach_reads call) ?_
  rintro _ s' ⟨-, hs⟩
  exact Triple.mono (hx s' hs) (fun _ _ h => h) (fun _ _ h => hs.trans h)

theorem insertRate_writes (rate : NewRate) :
    Writes (insertRate rate) env s fun stored t =>
      stored = (s.book.insertRate rate).1 ∧ t = { s with book := (s.book.insertRate rate).2 } := by
  refine reach_then_writes fun s' hs => Triple.of_run rfl ⟨_, ⟨?_, rfl⟩, ?_⟩
  · rw [hs.book]; rfl
  · exact { hs with book := by rw [hs.book]; rfl }

theorem replace_writes {call : StoreCall} {g : Book → Except StoreError Book} :
    Writes (do reach call; setBook (← ofExcept (g (← book)))) env s fun _ t =>
      ∃ b, g s.book = .ok b ∧ t = { s with book := b } := by
  refine reach_then_writes fun s' hs => ?_
  refine Triple.bind (Triple.book (Q := fun b s'' => b = s.book ∧ s'' = s') ⟨hs.book, rfl⟩) ?_
  rintro _ s' ⟨rfl, rfl⟩
  refine Triple.bind (Triple.ofExcept (Q := fun b s'' => g s.book = .ok b ∧ s'' = s')
    (fun b hb => ⟨hb, rfl⟩) fun _ _ => .refl s') ?_
  rintro b s' ⟨hb, rfl⟩
  exact Triple.modify ⟨_, ⟨b, hb, rfl⟩, { hs with book := rfl }⟩

theorem replaceRate_writes (rate : Rate) :
    Writes (replaceRate rate) env s fun _ t =>
      ∃ b, s.book.replaceRate rate = .ok b ∧ t = { s with book := b } :=
  replace_writes

theorem replaceExchange_writes (exchange : Exchange) :
    Writes (replaceExchange exchange) env s fun _ t =>
      ∃ b, s.book.replaceExchange exchange = .ok b ∧ t = { s with book := b } :=
  replace_writes

theorem deleteExchange_writes (id : ExchangeId) :
    Writes (deleteExchange id) env s fun found t =>
      found = (s.book.findExchange id).isSome ∧
        t = { s with book := (s.book.deleteExchange id).2 } := by
  refine reach_then_writes fun s' hs => Triple.of_run rfl ⟨_, ⟨?_, rfl⟩, ?_⟩
  · rw [hs.book]
  · exact { hs with book := by rw [hs.book]; rfl }

-- ---------------------------------------------------------------------------
-- The unit of work
-- ---------------------------------------------------------------------------

theorem begin_writes : Writes begin env s fun _ t => t = { s with staged := {} } :=
  reach_then_writes fun _ hs => Triple.of_run rfl ⟨_, rfl, { hs with staged := rfl }⟩

theorem insertExchange_writes (exchange : NewExchange) :
    Writes (insertExchange exchange) env s fun stored t =>
      stored = { exchange with id := ⟨s.book.nextExchange⟩ } ∧
        t = { s with
          book.nextExchange := s.book.nextExchange + 1
          staged.exchanges := s.staged.exchanges ++ [stored] } := by
  refine reach_then_writes fun s' hs => Triple.of_run rfl ⟨_, ⟨?_, rfl⟩, ?_⟩
  · rw [hs.book]
  · exact { hs with book := by rw [hs.book], staged := by rw [← hs.staged] }

theorem recordTransaction_writes (transaction : CashTransaction) :
    Writes (recordTransaction transaction) env s fun _ t =>
      t = { s with staged.transactions := s.staged.transactions ++ [transaction] } :=
  reach_then_writes fun _ hs => Triple.of_run rfl ⟨_, rfl, hs.stage fun staged =>
    { staged with transactions := staged.transactions ++ [transaction] }⟩

theorem postEntry_writes (entry : JournalEntry) :
    Writes (postEntry entry) env s fun _ t =>
      t = { s with staged.journal := s.staged.journal ++ [entry] } :=
  reach_then_writes fun _ hs => Triple.of_run rfl ⟨_, rfl, hs.stage fun staged =>
    { staged with journal := staged.journal ++ [entry] }⟩

theorem commit_writes :
    Writes commit env s fun _ t =>
      ∃ b, s.book.commit s.staged = .ok b ∧ t = { s with book := b, staged := {} } := by
  refine reach_then_writes fun s' hs => ?_
  cases hc : s.book.commit s.staged with
  | error e =>
    simp only [Triple, hs.book, hs.staged, hc]
    exact .refl s'
  | ok b =>
    simp only [Triple, hs.book, hs.staged, hc]
    exact ⟨_, ⟨b, rfl, rfl⟩, { hs with book := rfl, staged := rfl }⟩

end Store
end ExchangeDesk
