import Daybook.Words.Asserting
import Daybook.Words.Clock
import Daybook.Words.Drafting
import Daybook.Words.Opening
import Daybook.Words.Posting

/-!
# Words — core vocabulary

* `core_mem`: a name stands for no word but the one with which it is paired in `coreWords`.
-/

namespace Daybook

namespace Words

/-- The words of the core vocabulary with their names, sorted by name. -/
def coreWords : List (String × Word Book) :=
  [("add-notes", addNotes), ("assert", assertDefault), ("assert-lot", assertLot),
   ("assert-lots-sum", assertLotsSum), ("close", close), ("close-lot", closeLot),
   ("comment", comment), ("commodity", commodity), ("create-lot", createLot), ("date", date),
   ("lot", lot), ("open", openAccount), ("set-comment", setComment), ("tag", tag),
   ("tag-commodity", tagCommodity), ("untag", untag), ("xact", transact), ("xfer", transfer),
   ("xfer-exch", exchange)]

/-- The names of the core words. -/
def coreNames : List String := coreWords.map (·.1)

end Words

/-- The vocabulary of ledgers. -/
def Vocabulary.core : Vocabulary Book := fun name => Words.coreWords.lookup name

/-- A name stands for no word but the one with which it is paired. -/
theorem Vocabulary.core_mem {name : String} {w : Word Book} (h : Vocabulary.core name = some w) :
    (name, w) ∈ Words.coreWords :=
  Entries.mem_of_lookup h

end Daybook
