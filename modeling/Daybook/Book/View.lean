import Daybook.Book.Basic
import Daybook.Operands

/-!
# Book — views

How a book, and what it holds, is shown to a reader.
-/

namespace Daybook.Book

/-- An operand as it is shown to a reader. -/
def describe (b : Book) : Value → String
  | .text s => Text.quoted s
  | .transfer id => (b.transfer id).describe (b.account (b.transfer id).account).name
  | .foreign name => "<foreign " ++ name ++ ">"

/-- The operands that a word sees, as they are shown to a reader. -/
def describeOperands (b : Book) (ops : Operands) : String :=
  "Operands([" ++ String.intercalate ", " (ops.values.map b.describe) ++ "])"

/-- What carries tags, as it is shown to a reader. -/
def describeEntity (b : Book) : Entity → String
  | .commodity name => ((b.commodities.get? name).map Commodity.describe).getD ""
  | .account id => (b.account id).describe

/-- A book in one line. -/
def summary (b : Book) : String :=
  "Context(date=" ++ b.date.toString ++ ", " ++ toString b.accountNames.length ++ " accounts, "
    ++ toString b.commodities.size ++ " commodities, " ++ toString b.tagged.size ++ " tags)"

/-- The line that announces an event; a single posting is not announced. -/
def announce? (b : Book) : Event → Option String
  | .registered name description => some ("📝 Registered: " ++ name ++ " (" ++ description ++ ")")
  | .opened id => some ("📝 Opened: " ++ (b.account id).name)
  | .closed id => some ("🔒 Closed: " ++ (b.account id).name)
  | .lotCreated id lot => some ("📝 Created lot: " ++ (b.account id).name ++ " " ++ Text.inQuotes lot)
  | .lotClosed id lot => some ("🔒 Closed lot: " ++ (b.account id).name ++ " " ++ Text.inQuotes lot)
  | .posted _ _ => none
  | .applied entity description transfers =>
    some ("✓ APPLIED: " ++ entity ++ " " ++ Text.inQuotes description ++ " ("
      ++ toString transfers.length ++ " transfers)")

/-- The announcements of what was entered since the journal had `seen` events. -/
def announcements (b : Book) (seen : Nat) : List String :=
  (b.journal.take (b.journal.length - seen)).reverse.filterMap b.announce?

end Daybook.Book
