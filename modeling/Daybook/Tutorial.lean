import Daybook.Reader
import Daybook.Words.Observing
import Daybook.Words.Stack

/-!
# Tutorial

A walk through the language of ledgers in ten steps.  Each step shows a piece of source and what comes of
it: tokens, the operand stack and scopes first, then transactions and refusals, lots and assertions, and
at last the observation of a run.
-/

namespace Daybook.Tutorial

/-- A step of the tutorial. -/
structure Step where
  number : Nat
  title : String
  objective : String
  /-- What is shown, line after line. -/
  shown : List String

/-- The line between headings. -/
def rule : String := String.ofList (List.replicate 70 '=')

/-- All lines of a step, with its heading. -/
def Step.lines (s : Step) : List String :=
  ["", rule, "STEP " ++ toString s.number ++ ": " ++ s.title, rule, "", "Objective: " ++ s.objective, ""]
    ++ s.shown

/-! ### Pieces of source -/

/-- The text of a piece of source that begins on a line of its own. -/
def text (source : List String) : String := "\n" ++ String.join (source.map (· ++ "\n"))

/-- A piece of source, shown with a bar before each line and an empty line after it. -/
def sourceLines (source : List String) : List String := source.map ("    | " ++ ·) ++ [""]

def tokensSource : String :=
  "Assets:Checking \"my bank\" (silence x) Expenses:Dining\\ Out"

def stackSource : String := "a b c swap"

def scopesSource : String := "outer (inner)"

def setup : List String :=
  ["2024 1 1 date",
   "(USD \"US Dollar\" commodity)",
   "(AAPL \"Apple Inc.\" commodity)",
   "(Assets:Checking USD open)",
   "(Assets:Brokerage open)",
   "(Income:Salary USD open)",
   "(Equity open)",
   "Opening \"opening balance\"",
   "    Assets:Checking 5000 USD xfer",
   "    Equity -5000 USD xfer",
   "xact"]

def salary : List String :=
  ["2024 1 31 date",
   "Employer \"January salary\"",
   "    Assets:Checking 3000 USD xfer",
   "    Income:Salary -3000 USD xfer",
   "    period 2024-01",
   "xact",
   "(Assets:Checking 8000 USD assert)"]

def refusedSources : List String :=
  ["Shop \"typo\" Assets:Checking -30 USD xfer Equity 3 USD xfer xact",
   "Assets:Checking close",
   "2023 12 31 date"]

def trades : List String :=
  ["2024 2 1 date",
   "Broker \"buy AAPL\"",
   "    Assets:Brokerage 10 AAPL 185 USD 1850 USD xfer-exch 2024-02-01 create-lot",
   "    Assets:Checking -1850 USD xfer",
   "xact",
   "2024 3 1 date",
   "Broker \"buy more AAPL\"",
   "    Assets:Brokerage 5 AAPL 190 USD 950 USD xfer-exch 2024-03-01 create-lot",
   "    Assets:Checking -950 USD xfer",
   "xact"]

def assertions : List String :=
  ["(Assets:Brokerage 2024-02-01 10 AAPL assert-lot)",
   "(Assets:Brokerage 15 AAPL assert-lots-sum)",
   "(Assets:Brokerage 14 AAPL assert-lots-sum)"]

def sale : List String :=
  ["2024 4 1 date",
   "Broker \"sell first lot\"",
   "    Assets:Brokerage -10 AAPL 200 USD -2000 USD xfer-exch 2024-02-01 lot",
   "    Assets:Checking 2000 USD xfer",
   "xact",
   "(Assets:Brokerage 2024-02-01 close-lot)"]

/-! ### What is shown -/

/-- The balances of a commodity that are not zero, account by account. -/
def balances (b : Book) (commodity : String) : List String :=
  b.openAccounts.filterMap fun a => do
    let amount ← a.total commodity
    if amount.isZero then none
    else
      some ("    " ++ Text.alignLeft 22 a.name ++ " " ++ Text.alignRight 10 amount.toString ++ " "
        ++ commodity)

/-- What is shown of a failure. -/
def failures : Outcome → List String
  | .failed report => ["    ✗ " ++ report.message]
  | .completed => []
  | .stopped => []
  | .exceeded _ => []

/-- The account of a name in a book; one without holdings if there is none. -/
def accountOf (b : Book) (name : String) : Account := ((b.current? name).map b.account).getD default

/-- The lots of an account, sorted by name. -/
def sortedLots (a : Account) : List (String × Lot) := (Catalogue.ofList a.lots.entries).entries

/-- A holding with the price of its first transfer. -/
def holdingLine (h : Holding) : String :=
  let name := if h.lot = defaultLot then "<default>" else h.lot
  "    " ++ Text.alignLeft 12 name ++ " " ++ h.balance.toString ++ "  "
    ++ (h.rate.map ExchangeRate.toString).getD ""

/-- The account whose transfers the last step records. -/
def recordedAccount : String := "Assets:Checking"

/-- The lines of the register for a transaction. -/
def registerLines (x : Transaction) (b : Book) : List String :=
  x.transfers.filterMap fun id => do
    let t := b.transfer id
    let a := b.account t.account
    if a.name ≠ recordedAccount then none
    else
      let running ← a.balance? defaultLot "USD"
      some ("    " ++ b.date.toString ++ "  " ++ Text.alignLeft 18 x.description ++ " "
        ++ Text.alignRight 10 t.quantity.amount.toString ++ " " ++ Text.alignRight 10 running.toString)

/-- The day after which the run of the last step stops. -/
def cutoff : Date := ⟨2024, 2, 15⟩

/-- The vocabulary of the last step: it stops after the cut-off and records transactions. -/
def recordingVocabulary : Vocabulary (Observed (List String) Book) :=
  (Vocabulary.core.add "date" (Words.endingAfter cutoff Words.date)).beside.add "xact"
    (Words.recordingTransactions registerLines)

/-- The name of an outcome. -/
def outcomeName : Outcome → String
  | .completed => "COMPLETED"
  | .stopped => "STOPPED"
  | .failed _ => "FAILED"
  | .exceeded _ => "FAILED"

/-! ### Steps -/

def tokens : Step where
  number := 1
  title := "Tokens"
  objective := "See how source text splits into tokens."
  shown := sourceLines [tokensSource]
    ++ (Lexer.ofString tokensSource).tokens.map ("    " ++ ·.describe)

def stack : Step where
  number := 2
  title := "The Operand Stack"
  objective := "Words that are not functions are pushed; functions pop what they need."
  shown :=
    let run := (Machine.start ()).run (Vocabulary.empty.add "swap" Words.swap) (.ofString stackSource)
    let values := (Operands.values run.machine.stack).map Book.empty.describe
    sourceLines [stackSource] ++ ["    stack after run: (" ++ String.intercalate ", " values ++ ")"]

def scopes : Step where
  number := 3
  title := "Scopes"
  objective := "Parentheses hide outer operands and must be left as they were found."
  shown := sourceLines [scopesSource]
    ++ failures ((Machine.start ()).run .empty (.ofString scopesSource)).outcome

def opening : Step where
  number := 4
  title := "Commodities and Accounts"
  objective := "Register commodities, open accounts and record an opening balance."
  shown :=
    let (outcome, b) := Book.ofSource (text setup)
    sourceLines setup ++ Reader.announcements 0 b outcome ++ [""] ++ balances b "USD"

def transactions : Step where
  number := 5
  title := "Balanced Transactions"
  objective := "Transfers in one transaction must sum to zero."
  shown := sourceLines salary ++ balances (Book.ofSource (text setup ++ text salary)).2 "USD"

def refusals : Step where
  number := 6
  title := "Rejections"
  objective := "The first error stops the run and reports date, line and cause."
  shown := refusedSources.flatMap fun source =>
    sourceLines [source] ++ failures (Book.ofSource (text setup ++ source)).1 ++ [""]

def lots : Step where
  number := 7
  title := "Lots"
  objective := "Exchange transfers record their price on the lot they create."
  shown :=
    let b := (Book.ofSource (text setup ++ text trades)).2
    sourceLines trades
      ++ (sortedLots (accountOf b "Assets:Brokerage")).flatMap fun l => l.2.values.map holdingLine

def asserting : Step where
  number := 8
  title := "Assertions"
  objective := "assert, assert-lot and assert-lots-sum check balances in the source."
  shown := sourceLines assertions
    ++ failures (Book.ofSource (text setup ++ text trades ++ text assertions)).1

def closing : Step where
  number := 9
  title := "Closing Lots"
  objective := "A lot can be closed once every commodity in it is back to zero."
  shown :=
    let b := (Book.ofSource (text setup ++ text trades ++ text sale)).2
    let left := ((sortedLots (accountOf b "Assets:Brokerage")).map (·.1)).filter (· ≠ defaultLot)
    sourceLines sale ++ ["    lots left: [" ++ String.intercalate ", " (left.map Text.quoted) ++ "]"]

def reporting : Step where
  number := 10
  title := "Reporting Hooks"
  objective := "Replace date to stop at a cut-off; wrap xact to build a register."
  shown :=
    let (outcome, r) := (Reader.start (text setup ++ text trades) (Observed.new Book.empty)).read
      Observed.context recordingVocabulary
    ["    run result: " ++ outcomeName outcome, ""] ++ r.machine.context.register.reverse.flatten

/-- The steps of the tutorial. -/
def steps : List Step :=
  [tokens, stack, scopes, opening, transactions, refusals, lots, asserting, closing, reporting]

/-- What is said at the end. -/
def ending : List String := ["", "✓ Tutorial complete."]

/-- The whole tutorial. -/
def all : List String := steps.flatMap Step.lines ++ ending

end Daybook.Tutorial
