import Daybook.Calendar.Iso
import Daybook.Main
import Daybook.Proofs.Conservation
import Daybook.Proofs.Enclosed
import Daybook.Proofs.Handling
import Daybook.Proofs.Room
import Daybook.Proofs.Unchanged
import Daybook.Proofs.Scope
import Daybook.Proofs.Lossless
import Daybook.Proofs.Settling
import Daybook.Proofs.Lots
import Daybook.Proofs.Exceeding
import Daybook.Proofs.Replay
import Daybook.Proofs.History
import Daybook.Proofs.Reporting
import Daybook.Proofs.Frozen
import Daybook.Proofs.Tagging
import Daybook.Proofs.Stranded
import Daybook.Proofs.Chronology
import Daybook.Proofs.OneStack
import Daybook.Proofs.CutOff
import Daybook.Proofs.Silence
import Daybook.Proofs.Printing
import Daybook.Proofs.Ending
import Daybook.Proofs.Joining
import Daybook.Proofs.DryRun
import Daybook.Proofs.Layout
import Daybook.Proofs.Totals
import Daybook.Proofs.Accepting
import Daybook.Proofs.Reordering
import Daybook.Proofs.Retagging
import Daybook.Proofs.Decimal.Writing
import Daybook.Proofs.Receiving
import Daybook.Proofs.Calendar.Spellings
import Daybook.Proofs.Integers
