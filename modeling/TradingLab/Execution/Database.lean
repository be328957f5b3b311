import TradingLab.Method
import TradingLab.Json.Basic
import Mathlib.Data.List.Sort

/-!
# The execution database

Three stores share one database. A text column holds a text; an integer column
holds an integer, or whatever else was written into it: a text that is no number
stays a text. The writers only ever store integers there. Rows are listed in the
order in which they were inserted.
-/

namespace TradingLab

/-- What a row holds in an integer column. -/
inductive Cell where
  | int (n : ℤ)
  | real (value : ℚ)
  | infinite (negative : Bool)
  | text (s : String)
deriving DecidableEq

namespace Cell

def int? : Cell → Option ℤ
  | int n => some n
  | _ => none

@[simp] theorem int?_int (n : ℤ) : (int n).int? = some n := rfl

def toRat : Cell → ℚ
  | int n => n
  | real value => value
  | _ => 0

/-- The order of values in a column: numbers before texts. -/
def le : Cell → Cell → Bool
  | text a, text b => !keyLt b.toList a.toList
  | text _, _ => false
  | _, text _ => true
  | infinite true, _ => true
  | _, infinite false => true
  | infinite false, _ => false
  | _, infinite true => false
  | a, b => a.toRat ≤ b.toRat

end Cell

structure IntentRow where
  authorizationSha256 : String
  effectSha256 : String
  decisionSha256 : String
  readinessSha256 : String
  action : String
  approvedQuantity : String
  policyId : String
  intentSha256 : String
deriving Repr, DecidableEq

structure OrderEventRow where
  authorizationSha256 : String
  intentSha256 : String
  sequence : Cell
  eventTimeMs : Cell
  eventType : String
  reason : String
  previousEventSha256 : Option String
  eventSha256 : String
deriving DecidableEq

structure OrderStateRow where
  authorizationSha256 : String
  intentSha256 : String
  sequence : Cell
  updatedTimeMs : Cell
  status : String
  reason : String
  previousStateSha256 : Option String
  eventSha256 : String
  stateSha256 : String
deriving DecidableEq

structure FillEventRow where
  fillEventSha256 : String
  symbol : String
  sequence : Cell
  authorizationSha256 : String
  intentSha256 : String
  orderStateSha256 : String
  fillStepSha256 : String
  fillIndex : Cell
  payloadJson : String
deriving DecidableEq

structure PortfolioRow where
  symbol : String
  specSha256 : String
  fillCount : Cell
  lastFillEventSha256 : String
  markPrice : String
  payloadJson : String
  projectionSha256 : String
deriving DecidableEq

structure Database where
  /-- The names of the tables that exist. -/
  tables : List String
  executionMigrations : List ℤ
  orderMigrations : List ℤ
  portfolioMigrations : List ℤ
  intents : List IntentRow
  orderEvents : List OrderEventRow
  orderStates : List OrderStateRow
  fillEvents : List FillEventRow
  portfolios : List PortfolioRow
deriving DecidableEq

namespace Database

def executionTables : List String :=
  ["execution_schema_migrations", "local_paper_intents", "order_schema_migrations",
    "local_paper_order_events", "local_paper_order_states", "portfolio_schema_migrations",
    "local_paper_fill_events", "local_paper_portfolios"]

/-- The database after the migrations of the three stores. -/
def migrated : Database where
  tables := executionTables
  executionMigrations := [1]
  orderMigrations := [1]
  portfolioMigrations := [1]
  intents := []
  orderEvents := []
  orderStates := []
  fillEvents := []
  portfolios := []

def selectIntent (db : Database) (authorizationSha256 : String) : Option IntentRow :=
  db.intents.find? fun r => r.authorizationSha256 = authorizationSha256

def selectState (db : Database) (authorizationSha256 : String) : Option OrderStateRow :=
  db.orderStates.find? fun r => r.authorizationSha256 = authorizationSha256

/-- The rows of `local_paper_order_events` of one order. -/
def selectEvents (db : Database) (authorizationSha256 : String) : List OrderEventRow :=
  (db.orderEvents.filter fun r => r.authorizationSha256 = authorizationSha256).insertionSort
    fun r s => r.sequence.le s.sequence

end Database

end TradingLab
