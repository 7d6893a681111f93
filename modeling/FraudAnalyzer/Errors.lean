import FraudAnalyzer.Lib.Json

/-!
# Error taxonomy

Every failure of the API carries an `ErrorCode`, and the code alone decides the HTTP status.
-/

namespace FraudAnalyzer

inductive ErrorCode where
  | emptyStatement
  | multipleStatements
  | nonSelectStatement
  | forbiddenKeyword
  | forbiddenFunction
  | invalidSql
  | queryExecutionError
  | invalidChartConfig
  | invalidConnectionConfig
  | dbTlsRequired
  | connectionPaused
  | rowLimitExceeded
  | sqlTooLong
  | resultTooLarge
  | weakPassword
  | dbAuthFailed
  | dbPermissionDenied
  | invalidCredentials
  | notAuthenticated
  | accountLocked
  | passwordChangeRequired
  | forbidden
  | connectionNotFound
  | queryNotFound
  | tableNotFound
  | dashboardNotFound
  | userNotFound
  | listNotFound
  | duplicateName
  | duplicateEmail
  | lastAdmin
  | queryFrozen
  | publishNotPending
  | definitionChanged
  | listNameTaken
  | listInUse
  | requestValidationError
  | rateLimited
  | dbUnreachable
  | queryTimeout
  | internalError
  | serviceNotReady
  deriving DecidableEq, Repr

/-- `AppError`: the code, the message and the detail (no members for `None`). -/
structure AppError where
  errorCode : ErrorCode
  message : String
  detail : List (String × Json)

/-- `InvalidConfigError`. -/
def invalidConfigError (message : String) (detail : List (String × Json)) : AppError :=
  ⟨.invalidConnectionConfig, message, detail⟩

/-- What a call raises: an `AppError`, or any other exception. -/
inductive Raised (X : Type) where
  | appError (error : AppError)
  | other (error : X)

/-- `except AppError: raise`, then `except Exception` with a translation. -/
def Raised.translate {X : Type} (translate : X → AppError) : Raised X → AppError
  | .appError error => error
  | .other error => translate error

theorem bind_eq_ok {ε α β : Type} {x : Except ε α} {f : α → Except ε β} {b : β} :
    x >>= f = .ok b ↔ ∃ a, x = .ok a ∧ f a = .ok b := by
  constructor
  · intro h
    cases x with
    | error e => cases h
    | ok a => exact ⟨a, rfl, h⟩
  · rintro ⟨a, rfl, h⟩
    exact h

theorem map_eq_ok {ε α β : Type} {x : Except ε α} {f : α → β} {b : β} :
    x.map f = .ok b ↔ ∃ a, x = .ok a ∧ f a = b := by
  constructor
  · intro h
    cases x with
    | error e => cases h
    | ok a => exact ⟨a, rfl, Except.ok.inj h⟩
  · rintro ⟨a, rfl, rfl⟩
    rfl

end FraudAnalyzer
