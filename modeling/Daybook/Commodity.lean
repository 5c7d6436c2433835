import Daybook.Calendar.Date
import Daybook.Catalogue

/-!
# Commodities

What accounts can hold: currencies, securities and the like.  A name is registered once and never given
up, so a commodity is known by its name.
-/

namespace Daybook

/-- A registered commodity. -/
structure Commodity where
  name : String
  description : String
  /-- The date of registration. -/
  registered : Date
  tags : NameSet
  deriving DecidableEq

/-- A commodity as it is shown to a reader. -/
def Commodity.describe (c : Commodity) : String := "Commodity(" ++ c.name ++ ")"

end Daybook
