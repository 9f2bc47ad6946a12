import ExchangeDesk.Document.Setup
import ExchangeDesk.Proofs.JsonText
import ExchangeDesk.Proofs.Reachable

/-!
# Snapshots are read as written

Each record is read from the value that it is written as (`Currency.ofJson?_toJson` and the
like), so the text of a snapshot is read as the snapshot, but for the signs of zero
amounts. Such a sign is lost on nothing: the book that is loaded is the same.
-/

namespace ExchangeDesk

-- ---------------------------------------------------------------------------
-- Fields
-- ---------------------------------------------------------------------------

namespace Json

variable {α : Type} {j : Json}

theorem slots_members {members : List (String × Json)} (h : (members.map (·.1)).Nodup) :
    slots (members.map (·.1)) (.obj members) = some (members.map fun m => .given m.2) := by
  have hslot : ∀ m ∈ members, memberSlot members m.1 = some (.given m.2) := fun m hm => by
    have hfilter : members.filter (·.1 == m.1) = [m] := by
      refine eq_singleton ?_ (List.mem_filter.mpr ⟨hm, beq_self_eq_true m.1⟩)
      have hkeys := filter_key_length h m.1
      simpa only [beq_eq_decide] using hkeys
    rw [memberSlot, hfilter]
  rw [slots, List.mapM_map]
  exact mapM_some hslot

theorem Slot.required_given {decode : Json → Option α} {a : α} (h : decode j = some a) :
    (Slot.given j).required decode = some a := h

theorem Slot.withDefault_given {default : α} {decode : Json → Option α} {a : α}
    (h : decode j = some a) : (Slot.given j).withDefault default decode = some a := h

theorem list?_list {encode : α → Json} {decode : Json → Option β} {g : α → β} {l : List α}
    (h : ∀ a ∈ l, decode (encode a) = some (g a)) :
    list? decode (list encode l) = some (l.map g) := by
  rw [list, list?, List.mapM_map]
  exact mapM_some h

theorem nullable_ofOption {encode : α → Json} {decode : Json → Option α} (o : Option α)
    (h : ∀ a, decode (encode a) = some a) (hnull : ∀ a, encode a ≠ .null) :
    nullable decode (ofOption encode o) = some o := by
  cases o with
  | none => rfl
  | some a =>
    rw [ofOption, nullable, h]
    · rfl
    · exact hnull a

theorem natBelow?_ofNat {bound n : Nat} (h : n < bound) : natBelow? bound (ofNat n) = some n := by
  have hbound : (0 : Int) ≤ n ∧ (n : Int) < bound := by omega
  rw [ofNat, natBelow?, if_pos hbound, Int.toNat_natCast]

theorem word32?_ofNat (n : UInt32) : word32? (ofNat n.toNat) = some n := by
  rw [word32?, natBelow?_ofNat n.toNat_lt]
  simp

theorem id?_ofId {entity : Entity} {id : Id entity} (h : id.number < UInt64.size) :
    id? (ofId id) = some id := by
  rw [id?, ofId, word64?, natBelow?_ofNat h]
  rfl

theorem date?_ofDate (d : Date) : date? (ofDate d) = some d := by
  show ((Date.read .loose d.text).toOption : Option Date) = some d
  rw [Date.read_text]
  rfl

theorem decimal?_ofDecimal (d : Decimal) : decimal? (ofDecimal d) = some d.dropZeroSign := by
  rw [ofDecimal, decimal?, Decimal.read_text]
  rfl

theorem plain_ofId {entity : Entity} {id : Id entity} (h : id.number < UInt64.size) :
    (ofId id).Plain := .nat h

theorem plain_list {encode : α → Json} {l : List α} (h : ∀ a ∈ l, (encode a).Plain) :
    (list encode l).Plain :=
  .arr (by simpa using h)

theorem plain_ofOption {encode : α → Json} {o : Option α} (h : ∀ a, (encode a).Plain) :
    (ofOption encode o).Plain := by
  cases o with
  | none => exact .null
  | some a => exact h a

theorem plain_word32 (n : UInt32) : (ofNat n.toNat).Plain :=
  .nat (Nat.lt_trans n.toNat_lt (by decide))

theorem plain_members {members : List (String × Json)} (h : members.Forall fun m => m.2.Plain) :
    (Json.obj members).Plain :=
  .obj (List.forall_iff_forall_mem.mp h)

theorem rateType?_name (t : RateType) : rateType? (.str t.name) = some t := by
  cases t <;> decide

theorem activity?_name (a : Activity) : activity? (.str a.name) = some a := by
  cases a <;> decide

end Json

open Json

variable {j : Json}

-- ---------------------------------------------------------------------------
-- Records
-- ---------------------------------------------------------------------------

theorem Currency.slots_toJson (c : Currency) :
    slots ["code", "name", "decimal_places", "in_multiples_of", "display_symbol",
      "is_home_currency"] c.toJson = some [.given (ofCode c.code), .given (.str c.name),
        .given (ofNat c.decimalPlaces.toNat),
        .given (ofOption (fun n : UInt32 => ofNat n.toNat) c.multiple),
        .given (ofOption Json.str c.symbol), .given (.bool c.isHome)] :=
  slots_members (by simp)

theorem Currency.ofJson?_of_slots {c : Currency} {code name places multiple symbol home : Slot}
    (h : slots ["code", "name", "decimal_places", "in_multiples_of", "display_symbol",
      "is_home_currency"] j = some [code, name, places, multiple, symbol, home])
    (hcode : code.required code? = some c.code) (hname : name.required string? = some c.name)
    (hplaces : places.required word32? = some c.decimalPlaces)
    (hmultiple : multiple.withDefault none (nullable word32?) = some c.multiple)
    (hsymbol : symbol.withDefault none (nullable string?) = some c.symbol)
    (hhome : home.withDefault false bool? = some c.isHome) : Currency.ofJson? j = some c := by
  simp only [ofJson?, h, Option.bind_eq_bind, Option.bind_some, hcode, hname, hplaces, hmultiple,
    hsymbol, hhome, Option.pure_def]

theorem Currency.ofJson?_toJson (c : Currency) : Currency.ofJson? c.toJson = some c :=
  Currency.ofJson?_of_slots c.slots_toJson rfl rfl (Slot.required_given (word32?_ofNat _))
    (Slot.withDefault_given (nullable_ofOption _ word32?_ofNat fun _ => by simp [ofNat]))
    (Slot.withDefault_given (nullable_ofOption _ (fun _ => rfl) fun _ => by simp)) rfl

theorem NewRate.ofJson?_toJson (r : NewRate) :
    NewRate.ofJson? r.toJson = some { r with amount := r.amount.dropZeroSign } := by
  have hslots : slots ["date", "rate_type", "currency", "amount"] r.toJson =
      some [.given (ofDate r.date), .given (.str r.type.name), .given (ofCode r.currency),
        .given (ofDecimal r.amount)] :=
    slots_members (by simp [members])
  generalize r.toJson = j at hslots ⊢
  simp only [ofJson?, hslots, Option.bind_eq_bind, Option.bind_some, Slot.required, date?_ofDate,
    rateType?_name, code?, ofCode, string?, decimal?_ofDecimal, Option.map_some]
  rfl

def Cashier.InWords (c : Cashier) : Prop :=
  c.id.number < UInt64.size ∧ c.staff.number < UInt64.size ∧ c.teller.number < UInt64.size ∧
    c.office.number < UInt64.size

theorem Cashier.slots_toJson (c : Cashier) :
    slots ["id", "staff_id", "teller_id", "office_id"] c.toJson =
      some [.given (ofId c.id), .given (ofId c.staff), .given (ofId c.teller),
        .given (ofId c.office)] :=
  slots_members (by simp)

theorem Cashier.ofJson?_of_slots {c : Cashier} {id staff teller office : Slot}
    (h : slots ["id", "staff_id", "teller_id", "office_id"] j = some [id, staff, teller, office])
    (hid : id.required id? = some c.id) (hstaff : staff.required id? = some c.staff)
    (hteller : teller.required id? = some c.teller)
    (hoffice : office.required id? = some c.office) : Cashier.ofJson? j = some c := by
  simp only [ofJson?, h, Option.bind_eq_bind, Option.bind_some, hid, hstaff, hteller, hoffice,
    Option.pure_def]

theorem Cashier.ofJson?_toJson {c : Cashier} (h : c.InWords) :
    Cashier.ofJson? c.toJson = some c := by
  obtain ⟨hid, hstaff, hteller, hoffice⟩ := h
  exact Cashier.ofJson?_of_slots c.slots_toJson (Slot.required_given (id?_ofId hid))
    (Slot.required_given (id?_ofId hstaff)) (Slot.required_given (id?_ofId hteller))
    (Slot.required_given (id?_ofId hoffice))

theorem ActivityAccount.ofJson?_toJson {a : ActivityAccount}
    (h : a.glAccount.number < UInt64.size) : ActivityAccount.ofJson? a.toJson = some a := by
  have hslots : slots ["activity", "currency", "gl_account"] a.toJson =
      some [.given (.str a.activity.name), .given (ofCode a.currency), .given (ofId a.glAccount)] :=
    slots_members (by simp)
  generalize a.toJson = j at hslots ⊢
  simp only [ofJson?, hslots, Option.bind_eq_bind, Option.bind_some, Slot.required, activity?_name,
    code?, ofCode, string?, id?_ofId h, Option.map_some]
  rfl

namespace Snapshot

/-- The numbers of the records are as large as a document can tell. -/
structure InWords (s : Snapshot) : Prop where
  cashiers : ∀ c ∈ s.cashiers, c.InWords
  accounts : ∀ a ∈ s.accounts, a.glAccount.number < UInt64.size

def dropZeroSigns (s : Snapshot) : Snapshot :=
  { s with rates := s.rates.map fun r => { r with amount := r.amount.dropZeroSign } }

variable {s : Snapshot}

theorem ofJson?_toJson (h : s.InWords) : Snapshot.ofJson? s.toJson = some s.dropZeroSigns := by
  have hslots : slots ["currencies", "rates", "cashiers", "financial_activity_accounts"] s.toJson =
      some [.given (list Currency.toJson s.currencies), .given (list NewRate.toJson s.rates),
        .given (list Cashier.toJson s.cashiers), .given (list ActivityAccount.toJson s.accounts)] :=
    slots_members (by simp)
  have hcurrencies : list? Currency.ofJson? (list Currency.toJson s.currencies) =
      some s.currencies :=
    (list?_list (g := id) fun c _ => c.ofJson?_toJson).trans (congrArg some (List.map_id _))
  have hrates := list?_list (l := s.rates) fun r _ => r.ofJson?_toJson
  have hcashiers : list? Cashier.ofJson? (list Cashier.toJson s.cashiers) = some s.cashiers :=
    (list?_list (g := id) fun c hc => Cashier.ofJson?_toJson (h.cashiers c hc)).trans
      (congrArg some (List.map_id _))
  have haccounts : list? ActivityAccount.ofJson? (list ActivityAccount.toJson s.accounts) =
      some s.accounts :=
    (list?_list (g := id) fun a ha => ActivityAccount.ofJson?_toJson (h.accounts a ha)).trans
      (congrArg some (List.map_id _))
  generalize s.toJson = j at hslots ⊢
  simp only [ofJson?, hslots, Option.bind_eq_bind, Option.bind_some, Slot.required,
    Slot.withDefault, hcurrencies, hrates, hcashiers, haccounts]
  rfl

theorem toJson_plain (h : s.InWords) : s.toJson.Plain := by
  have hcurrency (c : Currency) : c.toJson.Plain :=
    plain_members ⟨.str _, .str _, plain_word32 _, plain_ofOption plain_word32,
      plain_ofOption .str, .bool _⟩
  have hrate (r : NewRate) : r.toJson.Plain := plain_members ⟨.str _, .str _, .str _, .str _⟩
  have hcashier : ∀ c ∈ s.cashiers, c.toJson.Plain := fun c hc => by
    obtain ⟨hid, hstaff, hteller, hoffice⟩ := h.cashiers c hc
    exact plain_members
      ⟨plain_ofId hid, plain_ofId hstaff, plain_ofId hteller, plain_ofId hoffice⟩
  have haccount : ∀ a ∈ s.accounts, a.toJson.Plain := fun a ha =>
    plain_members ⟨.str _, .str _, plain_ofId (h.accounts a ha)⟩
  exact plain_members ⟨plain_list fun c _ => hcurrency c, plain_list fun r _ => hrate r,
    plain_list hcashier, plain_list haccount⟩

theorem read?_of_toJson (h : s.InWords) {text : String}
    (htext : Json.read text = some s.toJson) : read? text = some s.dropZeroSigns := by
  rw [read?, htext]
  exact ofJson?_toJson h

end Snapshot

-- ---------------------------------------------------------------------------
-- Amounts compared as numbers
-- ---------------------------------------------------------------------------

def NewRate.SameAs (r r' : NewRate) : Prop :=
  r.date = r'.date ∧ r.type = r'.type ∧ r.currency = r'.currency ∧ (r.amount == r'.amount) = true

/-- The same records, but for amounts that are other forms of the same number. -/
structure Snapshot.SameAs (s s' : Snapshot) : Prop where
  currencies : s.currencies = s'.currencies
  rates : List.Forall₂ NewRate.SameAs s.rates s'.rates
  cashiers : s.cashiers = s'.cashiers
  accounts : s.accounts = s'.accounts

theorem Snapshot.dropZeroSigns_sameAs (s : Snapshot) : s.dropZeroSigns.SameAs s where
  currencies := rfl
  rates := List.forall₂_map_left_iff.mpr <| List.forall₂_same.mpr fun r _ =>
    ⟨rfl, rfl, rfl, r.amount.dropZeroSign_beq⟩
  cashiers := rfl
  accounts := rfl

-- ---------------------------------------------------------------------------
-- Loading
-- ---------------------------------------------------------------------------

theorem NewRate.validated_dropZeroSign {r r' : NewRate} :
    NewRate.validated { r with amount := r.amount.dropZeroSign } = .ok r' ↔
      r.validated = .ok r' := by
  by_cases h : r.amount.mantissa = 0
  · have hrefused {d : Decimal} (hd : d.mantissa = 0) :
        (d.round rateScale).isPositive = false := by
      have hzero : (d.round rateScale).mantissa = 0 := by
        rw [Decimal.round_mantissa_eq_zero, Decimal.Vanishes, hd]
        omega
      simp [Decimal.isPositive, hzero]
    have hsigned := hrefused (d := r.amount.dropZeroSign) h
    simp [validated, hrefused h, hsigned, bind_ok, throw, throwThe, MonadExceptOf.throw]
  · rw [Decimal.dropZeroSign_of_ne h]

namespace Book

theorem loadRate_dropZeroSign (b b' : Book) (r : NewRate) :
    b.loadRate { r with amount := r.amount.dropZeroSign } = .ok b' ↔ b.loadRate r = .ok b' := by
  have hok (r : NewRate) : b.loadRate r = .ok b' ↔
      ∃ r', r.validated = .ok r' ∧ (b.insertRate r').2 = b' := by
    rw [loadRate]
    cases r.validated <;> simp
  simp only [hok, NewRate.validated_dropZeroSign]

theorem ofSnapshot_dropZeroSigns (s : Snapshot) (b : Book) :
    ofSnapshot s.dropZeroSigns = .ok b ↔ ofSnapshot s = .ok b := by
  simp only [ofSnapshot, Snapshot.dropZeroSigns, bind_ok,
    foldlM_map_ok fun b b' r => loadRate_dropZeroSign b b' r]

end Book
end ExchangeDesk
