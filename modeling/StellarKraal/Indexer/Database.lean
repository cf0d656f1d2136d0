import StellarKraal.Foundation.KeyedStore
import StellarKraal.Foundation.Script

/-!
# The backend's tables

The rows the event indexer reads and writes, and the Prisma queries it makes of
them. A query is atomic, and one that throws changes nothing.
-/

namespace StellarKraal.Indexer

inductive LoanStatus
  | active
  | repaid
  | liquidated
  | defaulted
  deriving DecidableEq, Repr

inductive VerificationStatus
  | pending
  | appraised
  | verified
  | rejected
  deriving DecidableEq, Repr

structure User where
  id : String
  publicKey : String

structure Livestock where
  id : String
  /-- The tag the farmer gave the animal, unique among all rows. -/
  animalId : String
  verificationStatus : VerificationStatus

structure Loan where
  contractLoanId : String
  borrowerId : String
  livestockId : String
  principalUSDC : Float
  interestRateBps : Float
  durationDays : Float
  status : LoanStatus
  lastEventLedger : Option Nat

/-- Users by public key, livestock by row id, loans by contract loan id. -/
structure Database where
  users : KeyedStore String User := ∅
  livestock : KeyedStore String Livestock := ∅
  loans : KeyedStore String Loan := ∅

def Database.livestockTagged (db : Database) (animalId : String) : Option Livestock :=
  (db.livestock.entries.find? fun entry => entry.2.animalId = animalId).map (·.2)

/-- The columns an event may change in an existing loan row. -/
structure LoanUpdate where
  status : LoanStatus
  lastEventLedger : Nat

def LoanUpdate.apply (update : LoanUpdate) (loan : Loan) : Loan :=
  { loan with status := update.status, lastEventLedger := some update.lastEventLedger }

inductive Query
  | findLoan (contractLoanId : String)
  | findUser (publicKey : String)
  | findLivestock (animalId : String)
  /-- The livestock row that comes with a loan row. -/
  | findLoanLivestock (contractLoanId : String)
  | upsertLoan (create : Loan) (update : LoanUpdate)
  | updateLivestock (id : String) (verificationStatus : VerificationStatus)
  | updateLoan (contractLoanId : String) (update : LoanUpdate)

def Query.Row : Query → Type
  | .findLoan _ => Option Loan
  | .findUser _ => Option User
  | .findLivestock _ => Option Livestock
  | .findLoanLivestock _ => Option Livestock
  | .upsertLoan _ _ => Unit
  | .updateLivestock _ _ => Unit
  | .updateLoan _ _ => Unit

/-- `none` where the query throws. -/
abbrev Query.Reply (query : Query) : Type := Option query.Row

/-- Prisma's answers. `accepts` is its validation of a row to be created; an
update of a row that is not there throws. -/
def serve (accepts : Loan → Bool) : Script.Service Query.Reply Database
  | .findLoan contractLoanId, db => (some (db.loans.lookup contractLoanId), db)
  | .findUser publicKey, db => (some (db.users.lookup publicKey), db)
  | .findLivestock animalId, db => (some (db.livestockTagged animalId), db)
  | .findLoanLivestock contractLoanId, db =>
      (some ((db.loans.lookup contractLoanId).bind fun loan =>
        db.livestock.lookup loan.livestockId), db)
  | .upsertLoan create update, db =>
      match db.loans.lookup create.contractLoanId with
      | some loan =>
          (some (), { db with loans := db.loans.insert create.contractLoanId (update.apply loan) })
      | none =>
          if accepts create then
            (some (), { db with loans := db.loans.insert create.contractLoanId create })
          else (none, db)
  | .updateLivestock id verificationStatus, db =>
      match db.livestock.lookup id with
      | some row =>
          (some (), { db with
            livestock := db.livestock.insert id { row with verificationStatus } })
      | none => (none, db)
  | .updateLoan contractLoanId update, db =>
      match db.loans.lookup contractLoanId with
      | some loan =>
          (some (), { db with loans := db.loans.insert contractLoanId (update.apply loan) })
      | none => (none, db)

/-- The same database, where queries throw as foretold: one entry per query, and
no faults after the last. -/
def serveWithFaults (accepts : Loan → Bool) : Script.Service Query.Reply (Database × List Bool)
  | _, (db, true :: faults) => (none, db, faults)
  | query, (db, faults) => ((serve accepts query db).1, (serve accepts query db).2, faults.tail)

end StellarKraal.Indexer
