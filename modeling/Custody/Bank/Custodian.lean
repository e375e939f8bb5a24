import Custody.Error

/-!
# Custodians

What moves funds between accounts. A transfer happens as a whole or not at all.
-/

namespace Custody

class Custodian (β : Type) where
  send (bank : β) (source target : Address) (coin : Coin) : Except Error β
  /-- The account in which the named module keeps funds. -/
  moduleAddress (bank : β) (name : String) : Except Error Address

end Custody
