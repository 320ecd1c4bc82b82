/-!
# Types of named values
-/

namespace VirtualModem
set_option autoImplicit false

/-- A finite type whose values are known by name. -/
class Named (α : Type) where
  all : List α
  name : α → String

def Named.ofName? {α : Type} [Named α] (s : String) : Option α :=
  (Named.all : List α).find? (Named.name · = s)

end VirtualModem
