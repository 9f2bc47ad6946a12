/-!
# Identifiers

A number that identifies a record of one kind; numbers of different kinds do
not mix.
-/

namespace ExchangeDesk

inductive Entity where
  | rate
  | exchange
  | user
  | staff
  | cashier
  | teller
  | office
  | glAccount

structure Id (entity : Entity) where
  number : Nat
  deriving DecidableEq, Repr

abbrev RateId := Id .rate
abbrev ExchangeId := Id .exchange
abbrev UserId := Id .user
abbrev StaffId := Id .staff
abbrev CashierId := Id .cashier
abbrev TellerId := Id .teller
abbrev OfficeId := Id .office
abbrev GlAccountId := Id .glAccount

instance {entity : Entity} : ToString (Id entity) := ⟨fun id => toString id.number⟩

end ExchangeDesk
