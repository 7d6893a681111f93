import FraudAnalyzer.Connections.Models
import FraudAnalyzer.FlagRules.Dismissals
import FraudAnalyzer.FlagRules.FlaggedRows
import FraudAnalyzer.Users.Models

/-!
# What the application stores

The tables that the pages of a user are read from, at one moment.
-/

namespace FraudAnalyzer

structure Store where
  db : Db
  connections : Table Connections.Connection.id
  users : Table Users.User.id
  /-- `created_at` of the saved queries. -/
  created : String → Instant
  flaggedRows : Table FlagRules.FlaggedRow.key
  dismissals : List FlagRules.FlagDismissal

/-- `owner.full_name`, where the query has an owner. -/
def Store.ownerName (s : Store) (query : SavedQuery) : Option String :=
  match query.ownerId with
  | none | some "" => none
  | some ownerId => (s.users.get ownerId).map Users.User.fullName

end FraudAnalyzer
