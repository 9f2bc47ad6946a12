import Mathlib.Logic.Relation
import ExchangeDesk.Proofs.Documents

/-!
# Fields that were left out

`WritesOut fields j j'` is one step from a document to the same document with the default of
one more field written out: a member at any place of an object, or the next item of an array.
A step leaves what is read as it is (`Currency.ofJson?_writesOut`,
`Snapshot.ofJson?_writesOut`), so any number of steps does, wherever they are taken.
-/

namespace ExchangeDesk

namespace Json

/-- What documents know of a field: its name, the value that its absence stands for, if it may
be absent, and the steps that its own value can take. -/
structure Field where
  name : String
  default : Option Json := none
  within : Json → Json → Prop := fun _ _ => False

inductive WritesOut (fields : List Field) : Json → Json → Prop
  | member {before after : List (String × Json)} {f : Field} {j : Json} (hf : f ∈ fields)
      (hj : f.default = some j) (habsent : f.name ∉ (before ++ after).map (·.1)) :
      WritesOut fields (.obj (before ++ after)) (.obj (before ++ (f.name, j) :: after))
  | item {items : List Json} {f : Field} {j : Json} (hf : fields[items.length]? = some f)
      (hj : f.default = some j) : WritesOut fields (.arr items) (.arr (items ++ [j]))
  | inMember {before after : List (String × Json)} {f : Field} {j j' : Json} (hf : f ∈ fields)
      (hj : f.within j j') : WritesOut fields (.obj (before ++ (f.name, j) :: after))
        (.obj (before ++ (f.name, j') :: after))
  | inItem {before after : List Json} {f : Field} {j j' : Json}
      (hf : fields[before.length]? = some f) (hj : f.within j j') :
      WritesOut fields (.arr (before ++ j :: after)) (.arr (before ++ j' :: after))

/-- One of the values of a list takes a step. -/
inductive OneOf (step : Json → Json → Prop) : Json → Json → Prop
  | mk {before after : List Json} {j j' : Json} (h : step j j') :
      OneOf step (.arr (before ++ j :: after)) (.arr (before ++ j' :: after))

-- ---------------------------------------------------------------------------
-- Slots
-- ---------------------------------------------------------------------------

variable {fields : List Field} {f : Field} {j j' : Json}

inductive Slot.WritesOut (f : Field) : Slot → Slot → Prop
  | same (s : Slot) : Slot.WritesOut f s s
  | missing {j : Json} (h : f.default = some j) : Slot.WritesOut f .missing (.given j)
  | cutOff {j : Json} (h : f.default = some j) : Slot.WritesOut f .cutOff (.given j)
  | within {j j' : Json} (h : f.within j j') : Slot.WritesOut f (.given j) (.given j')

namespace Slot

variable {α : Type} {s s' : Slot}

theorem WritesOut.required (decode : Json → Option α) (h : s.WritesOut f s')
    (hdefault : f.default = none)
    (hwithin : ∀ j j', f.within j j' → decode j' = decode j) :
    s'.required decode = s.required decode := by
  cases h with
  | same => rfl
  | missing h => simp [hdefault] at h
  | cutOff h => simp [hdefault] at h
  | within h => exact hwithin _ _ h

theorem WritesOut.withDefault (a : α) (decode : Json → Option α) (h : s.WritesOut f s')
    (hdefault : f.default = some j) (hread : decode j = some a)
    (hwithin : ∀ j j', ¬ f.within j j') : s'.withDefault a decode = s.withDefault a decode := by
  cases h with
  | same => rfl
  | missing h =>
    obtain rfl := Option.some.inj (hdefault.symm.trans h)
    exact hread
  | cutOff h =>
    obtain rfl := Option.some.inj (hdefault.symm.trans h)
    exact hread
  | within h => exact absurd h (hwithin _ _)

end Slot

inductive SlotsWritten : List Field → List Slot → List Slot → Prop
  | nil : SlotsWritten [] [] []
  | cons {f : Field} {fields : List Field} {s s' : Slot} {ss ss' : List Slot}
      (h : s.WritesOut f s') (hs : SlotsWritten fields ss ss') :
      SlotsWritten (f :: fields) (s :: ss) (s' :: ss')

theorem SlotsWritten.refl {ss : List Slot} (h : ss.length = fields.length) :
    SlotsWritten fields ss ss := by
  induction fields generalizing ss with
  | nil =>
    obtain rfl := List.length_eq_zero_iff.mp h
    exact .nil
  | cons f fields ih =>
    obtain ⟨s, ss, rfl⟩ := List.exists_cons_of_length_eq_add_one h
    exact .cons (.same s) (ih (by simpa using h))

/-- The slots of both are read, each the same or written out, or both are refused. -/
def Written (fields : List Field) (ss ss' : Option (List Slot)) : Prop :=
  (ss = none ∧ ss' = none) ∨ ∃ l l', ss = some l ∧ ss' = some l' ∧ SlotsWritten fields l l'

theorem written_members {ms ms' : List (String × Json)}
    (h : ∀ f ∈ fields, (memberSlot ms f.name = none ∧ memberSlot ms' f.name = none) ∨
      ∃ s s', memberSlot ms f.name = some s ∧ memberSlot ms' f.name = some s' ∧ s.WritesOut f s') :
    Written fields (slots (fields.map (·.name)) (.obj ms))
      (slots (fields.map (·.name)) (.obj ms')) := by
  simp only [slots]
  induction fields with
  | nil => exact .inr ⟨[], [], rfl, rfl, .nil⟩
  | cons f fields ih =>
    obtain ⟨hf, hfields⟩ := List.forall_mem_cons.mp h
    simp only [List.map_cons, List.mapM_cons]
    rcases hf with ⟨hs, hs'⟩ | ⟨s, s', hs, hs', hwritten⟩
    · exact .inl ⟨by rw [hs]; rfl, by rw [hs']; rfl⟩
    · rw [hs, hs']
      rcases ih hfields with ⟨hl, hl'⟩ | ⟨l, l', hl, hl', hrest⟩
      · exact .inl ⟨by rw [hl]; rfl, by rw [hl']; rfl⟩
      · exact .inr ⟨s :: l, s' :: l', by rw [hl]; rfl, by rw [hl']; rfl, .cons hwritten hrest⟩

theorem written_item {items : List Json} (hf : fields[items.length]? = some f)
    (hj : f.default = some j) : SlotsWritten fields
      (items.map .given ++ List.replicate (fields.length - items.length) .cutOff)
      ((items ++ [j]).map .given ++
        List.replicate (fields.length - (items ++ [j]).length) .cutOff) := by
  induction items generalizing fields with
  | nil =>
    cases fields with
    | nil => simp at hf
    | cons g fields =>
      obtain rfl : g = f := by simpa using hf
      simpa [List.replicate_succ] using SlotsWritten.cons (.cutOff hj) (.refl (by simp))
  | cons i items ih =>
    cases fields with
    | nil => simp at hf
    | cons g fields =>
      have hrest := ih (show fields[items.length]? = some f by simpa using hf)
      simpa using SlotsWritten.cons (.same (.given i)) hrest

theorem written_inItem {before after : List Json} (hf : fields[before.length]? = some f)
    (hj : f.within j j') (hlength : (before ++ j :: after).length ≤ fields.length) :
    SlotsWritten fields
      ((before ++ j :: after).map .given ++
        List.replicate (fields.length - (before ++ j :: after).length) .cutOff)
      ((before ++ j' :: after).map .given ++
        List.replicate (fields.length - (before ++ j :: after).length) .cutOff) := by
  induction before generalizing fields with
  | nil =>
    cases fields with
    | nil => simp at hf
    | cons g fields =>
      obtain rfl : g = f := by simpa using hf
      have hrest : after.length ≤ fields.length := by simpa using hlength
      simpa using SlotsWritten.cons (.within hj) (.refl (by simp; omega))
  | cons i before ih =>
    cases fields with
    | nil => simp at hf
    | cons g fields =>
      have hrest := ih (show fields[before.length]? = some f by simpa using hf)
        (by simpa using hlength)
      simpa using SlotsWritten.cons (.same (.given i)) hrest

section

variable {before after : List (String × Json)} {name other : String}

theorem memberSlot_other (h : name ≠ other) :
    memberSlot (before ++ (name, j) :: after) other = memberSlot (before ++ after) other := by
  simp [memberSlot, List.filter_append, h]

theorem memberSlot_absent (h : name ∉ (before ++ after).map (·.1)) :
    memberSlot (before ++ after) name = some .missing ∧
      memberSlot (before ++ (name, j) :: after) name = some (.given j) := by
  have habsent : ∀ m ∈ before ++ after, ¬ (m.1 == name) = true := fun m hm hname =>
    h (List.mem_map.mpr ⟨m, hm, eq_of_beq hname⟩)
  obtain ⟨hbefore, hafter⟩ := List.forall_mem_append.mp habsent
  simp [memberSlot, List.filter_append, List.filter_eq_nil_iff.mpr hbefore,
    List.filter_eq_nil_iff.mpr hafter]

/-- A member is the only one of its name, or it is refused with the others. -/
theorem memberSlot_self : (∀ j : Json, memberSlot (before ++ (name, j) :: after) name = none) ∨
    ∀ j : Json, memberSlot (before ++ (name, j) :: after) name = some (.given j) := by
  simp only [memberSlot, List.filter_append, List.filter_cons, beq_self_eq_true, if_true]
  cases before.filter (·.1 == name) with
  | nil =>
    cases after.filter (·.1 == name) with
    | nil => exact .inr fun _ => rfl
    | cons m rest => exact .inl fun _ => rfl
  | cons m rest => exact .inl fun _ => by cases rest <;> rfl

end

theorem WritesOut.slots (h : WritesOut fields j j') (hnames : (fields.map (·.name)).Nodup) :
    Written fields (slots (fields.map (·.name)) j) (slots (fields.map (·.name)) j') := by
  have hname {f g : Field} (hf : f ∈ fields) (hg : g ∈ fields) (h : f.name = g.name) : f = g :=
    List.inj_on_of_nodup_map hnames hf hg h
  have hsame (f : Field) {o o' : Option Slot} (h : o' = o) : (o = none ∧ o' = none) ∨
      ∃ s s', o = some s ∧ o' = some s' ∧ s.WritesOut f s' := by
    cases o with
    | none => exact .inl ⟨rfl, h⟩
    | some s => exact .inr ⟨s, s, rfl, h, .same s⟩
  cases h with
  | @member before after f j hf hj habsent =>
    refine written_members fun g hg => ?_
    by_cases hfg : f.name = g.name
    · obtain rfl := hname hf hg hfg
      obtain ⟨hmissing, hgiven⟩ := memberSlot_absent (j := j) habsent
      exact .inr ⟨_, _, hmissing, hgiven, .missing hj⟩
    · exact hsame g (memberSlot_other hfg)
  | @inMember before after f j j' hf hj =>
    refine written_members fun g hg => ?_
    by_cases hfg : f.name = g.name
    · obtain rfl := hname hf hg hfg
      rcases memberSlot_self with hnone | hgiven
      · exact .inl ⟨hnone j, hnone j'⟩
      · exact .inr ⟨_, _, hgiven j, hgiven j', .within hj⟩
    · exact hsame g ((memberSlot_other hfg).trans (memberSlot_other hfg).symm)
  | @item items f j hf hj =>
    obtain ⟨hlength, -⟩ := List.getElem?_eq_some_iff.mp hf
    refine .inr ⟨_, _, ?_, ?_, written_item hf hj⟩
    · rw [Json.slots, if_pos (by simp; omega), List.length_map]
    · rw [Json.slots, if_pos (by simp; omega), List.length_map]
  | @inItem before after f j j' hf hj =>
    by_cases hlength : (before ++ j :: after).length ≤ fields.length
    · refine .inr ⟨_, _, ?_, ?_, written_inItem hf hj hlength⟩
      · rw [Json.slots, if_pos (by simpa using hlength), List.length_map]
      · rw [Json.slots, if_pos (by simpa using hlength), List.length_map]
        simp
    · exact .inl ⟨if_neg (by simpa using hlength), if_neg (by simpa using hlength)⟩

end Json

open Json

-- ---------------------------------------------------------------------------
-- The records with defaults
-- ---------------------------------------------------------------------------

variable {j j' : Json}

def Currency.fields : List Field := [
  { name := "code" },
  { name := "name" },
  { name := "decimal_places" },
  { name := "in_multiples_of", default := some .null },
  { name := "display_symbol", default := some .null },
  { name := "is_home_currency", default := some (.bool false) }]

theorem Currency.ofJson?_writesOut (h : WritesOut Currency.fields j j') :
    Currency.ofJson? j' = Currency.ofJson? j := by
  rcases h.slots (by decide) with ⟨hl, hl'⟩ | ⟨l, l', hl, hl', hwritten⟩
  · simp only [fields, List.map_cons, List.map_nil] at hl hl'
    simp only [ofJson?, hl, hl']
  · simp only [fields, List.map_cons, List.map_nil] at hl hl' hwritten
    obtain _ | ⟨hcode, _ | ⟨hname, _ | ⟨hplaces, _ | ⟨hmultiple, _ | ⟨hsymbol,
      _ | ⟨hhome, ⟨⟩⟩⟩⟩⟩⟩⟩ := hwritten
    replace hcode := hcode.required code? rfl fun _ _ => False.elim
    replace hname := hname.required string? rfl fun _ _ => False.elim
    replace hplaces := hplaces.required word32? rfl fun _ _ => False.elim
    replace hmultiple := hmultiple.withDefault none (nullable word32?) rfl rfl fun _ _ => id
    replace hsymbol := hsymbol.withDefault none (nullable string?) rfl rfl fun _ _ => id
    replace hhome := hhome.withDefault false bool? rfl rfl fun _ _ => id
    simp only [ofJson?, hl, hl', Option.bind_eq_bind, Option.bind_some, hcode, hname, hplaces,
      hmultiple, hsymbol, hhome]

def Snapshot.fields : List Field := [
  { name := "currencies", within := OneOf (WritesOut Currency.fields) },
  { name := "rates", default := some (.arr []) },
  { name := "cashiers", default := some (.arr []) },
  { name := "financial_activity_accounts", default := some (.arr []) }]

theorem Currency.list?_writesOut (h : OneOf (WritesOut Currency.fields) j j') :
    list? Currency.ofJson? j' = list? Currency.ofJson? j := by
  obtain ⟨hstep⟩ := h
  simp only [list?, List.mapM_append, List.mapM_cons, Currency.ofJson?_writesOut hstep]

namespace Snapshot

theorem ofJson?_writesOut (h : WritesOut Snapshot.fields j j') :
    Snapshot.ofJson? j' = Snapshot.ofJson? j := by
  rcases h.slots (by decide) with ⟨hl, hl'⟩ | ⟨l, l', hl, hl', hwritten⟩
  · simp only [fields, List.map_cons, List.map_nil] at hl hl'
    simp only [ofJson?, hl, hl']
  · simp only [fields, List.map_cons, List.map_nil] at hl hl' hwritten
    obtain _ | ⟨hcurrencies, _ | ⟨hrates, _ | ⟨hcashiers, _ | ⟨haccounts, ⟨⟩⟩⟩⟩⟩ := hwritten
    replace hcurrencies := hcurrencies.required (list? Currency.ofJson?) rfl
      fun _ _ => Currency.list?_writesOut
    replace hrates := hrates.withDefault [] (list? NewRate.ofJson?) rfl rfl fun _ _ => id
    replace hcashiers := hcashiers.withDefault [] (list? Cashier.ofJson?) rfl rfl fun _ _ => id
    replace haccounts := haccounts.withDefault [] (list? ActivityAccount.ofJson?) rfl rfl
      fun _ _ => id
    simp only [ofJson?, hl, hl', Option.bind_eq_bind, Option.bind_some, hcurrencies, hrates,
      hcashiers, haccounts]

theorem ofJson?_writtenOut (h : Relation.ReflTransGen (WritesOut Snapshot.fields) j j') :
    Snapshot.ofJson? j' = Snapshot.ofJson? j := by
  induction h with
  | refl => rfl
  | tail _ hstep ih => exact (ofJson?_writesOut hstep).trans ih

/-- A snapshot whose identifiers fit a word (`InWords`) is read back from its compact and from its
pretty text as the same one (`SameAs`), and both load the same book. Documents that differ in
defaults written out (`WritesOut`) are read alike. -/
theorem text_faithful :
    (∀ s : Snapshot, s.InWords → ∀ text ∈ [s.toJson.compact, s.toJson.pretty],
      ∃ s', read? text = some s' ∧ s'.SameAs s ∧
        ∀ b, Book.ofSnapshot s' = .ok b ↔ Book.ofSnapshot s = .ok b) ∧
    ∀ text text' j j', Json.read text = some j → Json.read text' = some j' →
      Relation.ReflTransGen (WritesOut Snapshot.fields) j j' → read? text' = read? text := by
  constructor
  · intro s h text htext
    have hread : Json.read text = some s.toJson := by
      rcases List.mem_pair.mp htext with rfl | rfl
      · exact Json.read_compact (toJson_plain h)
      · exact Json.read_pretty (toJson_plain h)
    exact ⟨s.dropZeroSigns, read?_of_toJson h hread, s.dropZeroSigns_sameAs,
      Book.ofSnapshot_dropZeroSigns s⟩
  · intro text text' j j' htext htext' hwritten
    simp only [read?, htext, htext', Option.bind_some]
    exact ofJson?_writtenOut hwritten

/-- Names that have to be escaped, the first day that there is, a zero amount with a sign, and
the largest number of a word. -/
def oddSnapshot : Snapshot where
  currencies := [
    { code := ⟨"UGX"⟩, name := "\"\\\n\x01é", decimalPlaces := 0, multiple := some 50,
      symbol := some "", isHome := true },
    { code := ⟨"usd"⟩, name := "", decimalPlaces := 4294967295, multiple := none, symbol := none,
      isHome := false }]
  rates := [⟨⟨-262143, 1, 1, by decide⟩, .buying, ⟨"USD"⟩,
    ⟨true, 0, 28, Decimal.zero.mantissa_lt, by decide⟩⟩]
  cashiers := [⟨⟨18446744073709551615⟩, ⟨7⟩, ⟨0⟩, ⟨1⟩⟩]
  accounts := [⟨.cashAtTeller, ⟨"EUR"⟩, ⟨18446744073709551615⟩⟩]

def briefCurrency : Json :=
  .obj [("code", .str "UGX"), ("name", .str "Shilling"), ("decimal_places", .ofNat 0)]

def filledCurrency : Json :=
  .obj [("code", .str "UGX"), ("is_home_currency", .bool false), ("name", .str "Shilling"),
    ("decimal_places", .ofNat 0)]

def briefDocument : Json := .obj [("currencies", .arr [briefCurrency])]

def filledDocument : Json := .obj [("rates", .arr []), ("currencies", .arr [filledCurrency])]

theorem briefDocument_writtenOut :
    Relation.ReflTransGen (WritesOut Snapshot.fields) briefDocument filledDocument := by
  have hcurrency : WritesOut Currency.fields briefCurrency filledCurrency :=
    @WritesOut.member _ [("code", .str "UGX")] [("name", .str "Shilling"),
      ("decimal_places", .ofNat 0)] { name := "is_home_currency", default := some (.bool false) } _
      (by simp [Currency.fields]) rfl (by decide)
  have hinside : WritesOut Snapshot.fields briefDocument
      (.obj [("currencies", .arr [filledCurrency])]) :=
    @WritesOut.inMember _ [] []
      { name := "currencies", within := OneOf (WritesOut Currency.fields) } _ _
      (by simp [Snapshot.fields]) (@OneOf.mk _ [] [] _ _ hcurrency)
  have houtside : WritesOut Snapshot.fields (.obj [("currencies", .arr [filledCurrency])])
      filledDocument :=
    @WritesOut.member _ [] [("currencies", .arr [filledCurrency])]
      { name := "rates", default := some (.arr []) } _ (by simp [Snapshot.fields]) rfl (by decide)
  exact .tail (.single hinside) houtside

theorem text_faithful_odd :
    (∃ s', read? oddSnapshot.toJson.pretty = some s' ∧ s'.SameAs oddSnapshot ∧
      ∀ b, Book.ofSnapshot s' = .ok b ↔ Book.ofSnapshot oddSnapshot = .ok b) ∧
    read? filledDocument.compact = read? briefDocument.compact := by
  obtain ⟨hsnapshots, hdocuments⟩ := text_faithful
  have hodd : oddSnapshot.InWords :=
    ⟨by simp [oddSnapshot, Cashier.InWords, UInt64.size], by simp [oddSnapshot]⟩
  have hcurrency : briefCurrency.Plain ∧ filledCurrency.Plain :=
    ⟨plain_members ⟨.str _, .str _, .nat (by decide)⟩,
      plain_members ⟨.str _, .bool _, .str _, .nat (by decide)⟩⟩
  have hbrief : briefDocument.Plain := plain_members (.arr (by simpa using hcurrency.1))
  have hfilled : filledDocument.Plain :=
    plain_members ⟨.arr (by simp), .arr (by simpa using hcurrency.2)⟩
  exact ⟨hsnapshots oddSnapshot hodd _ (by simp),
    hdocuments _ _ _ _ (Json.read_compact hbrief) (Json.read_compact hfilled)
      briefDocument_writtenOut⟩

end Snapshot
end ExchangeDesk
