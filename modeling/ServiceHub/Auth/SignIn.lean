import ServiceHub.Lib.Guard
import ServiceHub.Lib.Machine
import ServiceHub.Lib.Threads
import ServiceHub.Schema

/-! # Sign-in and passwords of one account

The calls of the authentication services on one account. A call reads the account outside of a
transaction and commits later; the transactions take the lock of the account and of its sessions
and are one step each. New passwords have passed the password schema.
-/

namespace ServiceHub

open Guard

/-- A `bcrypt` hash. The salt is drawn anew for every hash, and nobody knows the password of an
    account that Google sign-in has created. -/
structure PasswordHash where
  password : Option String
  salt : Nat
  deriving Repr, DecidableEq

/-- `bcrypt.compare`. -/
def PasswordHash.compare (password : String) (hash : PasswordHash) : Bool :=
  hash.password == some password

inductive PasswordState where
  | legacyUnconfirmed | set | none
  deriving Repr, DecidableEq

/-- The columns of `User` that the authentication services read. -/
structure AuthAccount where
  passwordHash : PasswordHash
  passwordState : PasswordState := .legacyUnconfirmed
  googleSubject : Option Nat := none
  isActive : Bool := true
  deactivatedAt : Option Millis := none
  moderationStatus : AccountModerationStatus := .active
  deriving Repr, DecidableEq

/-- A signed refresh token: its session and its random `jti`. -/
structure RefreshTokenString where
  sid : Nat
  jti : Nat
  deriving Repr, DecidableEq

structure RefreshToken where
  id : Nat
  token : RefreshTokenString
  expiresAt : Millis
  deriving Repr, DecidableEq

/-- The token is the row's number. -/
structure PasswordResetToken where
  token : Nat
  used : Bool := false
  expiresAt : Millis
  deriving Repr, DecidableEq

/-- The grant that `verifyPasswordSetup` signs; its version is the hash of the password hash. -/
structure PasswordGrant where
  sid : Nat
  googleSubject : Nat
  version : PasswordHash
  expiresAt : Millis
  deriving Repr, DecidableEq

/-- The rows of one account, and the numbers of the next random values. -/
structure AuthTables where
  now : Millis
  user : Option AuthAccount := none
  refreshTokens : List RefreshToken := []
  passwordResetTokens : List PasswordResetToken := []
  grants : List PasswordGrant := []
  nextSalt : Nat := 0
  nextSession : Nat := 0
  nextJti : Nat := 0
  nextReset : Nat := 0
  deriving Repr, DecidableEq

/-- The account may not sign in: deactivated, or inactive without being banned. -/
def AuthAccount.closed (u : AuthAccount) : Bool :=
  u.deactivatedAt.isSome || (!u.isActive && u.moderationStatus != .banned)

/-- The condition under which a password can be reset by mail. -/
def AuthAccount.resettable (u : AuthAccount) : Bool :=
  u.passwordState != .none && !(u.passwordState == .legacyUnconfirmed && u.googleSubject.isSome)

/-- A row that `resetPassword` can claim. -/
def PasswordResetToken.live (now : Millis) (row : PasswordResetToken) : Bool :=
  !row.used && decide (now < row.expiresAt)

def invalidCredentials : HttpError := httpError "Invalid credentials" 401

def invalidResetLink : HttpError := httpError "Invalid or expired reset link" 400

/-- The next statement or transaction of a call. -/
inductive AuthCall where
  | register (password : String)
  | login (password : String)
  | google (subject : Nat) (byEmail : Bool)
  | googleLink (subject : Nat)
  | issue (passwordAuthenticated : Bool) (expectedPasswordHash : PasswordHash)
  | refresh (token : RefreshTokenString)
  | refreshAccount (token : RefreshTokenString) (sid : Nat)
  | rotate (token : RefreshTokenString) (sid : Nat)
  | forgot
  | forgotInvalidate
  | forgotCreate
  | reset (token : Nat) (newPassword : String)
  | resetCommit (token : Nat) (newPassword : String)
  | change (currentPassword newPassword : String) (sid : Option Nat)
  | changeCommit (read : PasswordHash) (newPassword : String) (sid : Option Nat)
  | verifySetup (sid : Nat) (verifiedSubject : Nat) (sameEmail linkedElsewhere : Bool)
  | setPassword (grant : PasswordGrant) (newPassword : String)
  deriving Repr, DecidableEq

namespace AuthTables

def refreshTokenTtlMs : Millis := 7 * 24 * 60 * 60 * 1000

def resetTokenTtlMs : Millis := 30 * 60 * 1000

def grantTtlMs : Millis := 300 * 1000

def findToken (t : AuthTables) (token : RefreshTokenString) : Option RefreshToken :=
  t.refreshTokens.find? (·.token == token)

def findReset (t : AuthTables) (token : Nat) : Option PasswordResetToken :=
  t.passwordResetTokens.find? (·.token == token)

/-- The session is live. -/
def hasSession (t : AuthTables) (sid : Nat) : Bool :=
  t.refreshTokens.any fun row => row.id == sid && decide (t.now < row.expiresAt)

/-- A new account with the hash of the password. -/
def createUser (password : Option String) (state : PasswordState) (subject : Option Nat)
    (t : AuthTables) : AuthTables :=
  { t with
    user := some {
      passwordHash := ⟨password, t.nextSalt⟩, passwordState := state, googleSubject := subject }
    nextSalt := t.nextSalt + 1 }

def updateUser (g : AuthAccount → AuthAccount) (t : AuthTables) : AuthTables :=
  { t with user := t.user.map g }

/-- The update of the password columns with the hash of the new password. -/
def storePassword (newPassword : String) (t : AuthTables) : AuthTables :=
  { t.updateUser ({ · with
      passwordHash := ⟨some newPassword, t.nextSalt⟩, passwordState := .set }) with
    nextSalt := t.nextSalt + 1 }

/-- The account creation of `registerUser`. -/
def registerUser (password : String) (t : AuthTables) : Except HttpError (AuthTables × AuthCall) := do
  rejectIf t.user.isSome
    (httpError "This email is already registered. Log in, or use Google sign-in if that is how you created your account."
      409 (some "EMAIL_ALREADY_REGISTERED"))
  return (t.createUser (some password) .set none, .issue false ⟨some password, t.nextSalt⟩)

/-- `loginUser` before its transaction. -/
def loginUser (password : String) (t : AuthTables) : Except HttpError AuthCall := do
  let user ← orThrow t.user invalidCredentials
  rejectIf (user.passwordState = .none ∨ user.passwordHash.compare password = false) invalidCredentials
  rejectIf user.closed (httpError "Your account has been suspended. Please contact support." 403)
  return .issue true user.passwordHash

/-- `googleLoginUser` finds the account by subject or by address, or creates it. -/
def googleLoginUser (subject : Nat) (byEmail : Bool) (t : AuthTables) :
    Except HttpError (AuthTables × AuthCall) :=
  match t.user with
  | none => return (t.createUser none .none (some subject), .issue false ⟨none, t.nextSalt⟩)
  | some user => do
      rejectIf (user.googleSubject ≠ some subject ∧ byEmail = false)
        (httpError "Another account signs in" 404)
      rejectIf user.closed (httpError "Your account has been suspended. Please contact support." 403)
      rejectIf (user.googleSubject.any (· ≠ subject))
        (httpError "This email is connected to a different Google account." 403)
      return (t, .googleLink subject)

/-- The transaction that connects the Google account. -/
def linkGoogle (subject : Nat) (t : AuthTables) : Except HttpError (AuthTables × AuthCall) := do
  let latest ← orThrow t.user recordNotFound
  rejectIf latest.closed (httpError "Account inactive" 403)
  rejectIf (latest.googleSubject.any (· ≠ subject)) (httpError "Google account does not match." 403)
  return (t.updateUser ({ · with googleSubject := some subject }), .issue false latest.passwordHash)

/-- `issueTokens`. -/
def issueTokens (passwordAuthenticated : Bool) (expectedPasswordHash : PasswordHash) (t : AuthTables) :
    Except HttpError AuthTables := do
  let current ← orThrow t.user invalidCredentials
  rejectIf (current.closed = true ∨ current.passwordHash ≠ expectedPasswordHash) invalidCredentials
  rejectIf (passwordAuthenticated = true ∧ current.passwordState = .none) invalidCredentials
  let confirmed := if passwordAuthenticated ∧ current.passwordState = .legacyUnconfirmed
    then t.updateUser ({ · with passwordState := .set }) else t
  return { confirmed with
    refreshTokens := t.refreshTokens ++ [{
      id := t.nextSession, token := ⟨t.nextSession, t.nextJti⟩
      expiresAt := t.now + refreshTokenTtlMs }]
    nextSession := t.nextSession + 1
    nextJti := t.nextJti + 1 }

/-- The lookup of the presented token by `resolveRefreshTokenUser`. -/
def resolveToken (token : RefreshTokenString) (t : AuthTables) : Except HttpError AuthCall := do
  let missing := httpError "Refresh token not found or expired" 401
  let stored ← orThrow (t.findToken token) missing
  rejectIf (stored.expiresAt < t.now) missing
  return .refreshAccount token stored.id

/-- The account of the presented token. -/
def resolveTokenUser (token : RefreshTokenString) (sid : Nat) (t : AuthTables) :
    Except HttpError AuthCall := do
  let missing := httpError "User not found or suspended" 401
  let user ← orThrow t.user missing
  rejectIf user.closed missing
  return .rotate token sid

/-- The row that the conditional replacement of `refreshAccessToken` matches. -/
def rotatable (token : RefreshTokenString) (sid : Nat) (t : AuthTables) (row : RefreshToken) : Bool :=
  row.id == sid && row.token == token && decide (t.now < row.expiresAt)

/-- The conditional replacement of `refreshAccessToken`. -/
def rotateToken (token : RefreshTokenString) (sid : Nat) (t : AuthTables) : Except HttpError AuthTables := do
  rejectIf (t.refreshTokens.countP (rotatable token sid t) ≠ 1)
    (httpError "Refresh token already used or revoked" 401)
  return { t with
    refreshTokens := t.refreshTokens.map fun row =>
      if rotatable token sid t row then
        { row with token := ⟨sid, t.nextJti⟩, expiresAt := t.now + refreshTokenTtlMs }
      else row
    nextJti := t.nextJti + 1 }

/-- The reset token that `forgotPassword` creates and mails. -/
def createResetToken (t : AuthTables) : AuthTables :=
  { t with
    passwordResetTokens := t.passwordResetTokens ++ [{
      token := t.nextReset, expiresAt := t.now + resetTokenTtlMs }]
    nextReset := t.nextReset + 1 }

/-- The lookup of `resetPassword` before its transaction. -/
def readResetToken (token : Nat) (newPassword : String) (t : AuthTables) : Except HttpError AuthCall := do
  let record ← orThrow (t.findReset token) invalidResetLink
  rejectIf (record.used = true ∨ record.expiresAt < t.now) invalidResetLink
  return .resetCommit token newPassword

/-- The transaction of `resetPassword`. -/
def resetPassword (token : Nat) (newPassword : String) (t : AuthTables) : Except HttpError AuthTables := do
  let user ← orThrow t.user invalidResetLink
  rejectIf (user.deactivatedAt.isSome = true ∨ user.isActive = false ∨ user.resettable = false)
    invalidResetLink
  rejectIf (t.passwordResetTokens.countP (fun row => row.token == token && row.live t.now) ≠ 1)
    invalidResetLink
  return { t.storePassword newPassword with
    passwordResetTokens := t.passwordResetTokens.map fun row =>
      if row.token == token && row.live t.now then { row with used := true } else row
    refreshTokens := [] }

/-- `changeUserPassword` before its transaction. -/
def readCurrentPassword (currentPassword newPassword : String) (sid : Option Nat) (t : AuthTables) :
    Except HttpError AuthCall := do
  let user ← orThrow t.user (httpError "User not found" 404)
  rejectIf (user.passwordState = .none)
    (httpError "No password is set. Verify with Google and use Set Password." 409 (some "PASSWORD_NOT_SET"))
  rejectIf (user.passwordHash.compare currentPassword = false)
    (httpError "Current password is incorrect. Try again." 400 (some "CURRENT_PASSWORD_INCORRECT"))
  return .changeCommit user.passwordHash newPassword sid

/-- The transaction of `changeUserPassword`. -/
def changeUserPassword (read : PasswordHash) (newPassword : String) (sid : Option Nat) (t : AuthTables) :
    Except HttpError AuthTables := do
  let inactive := httpError "Account inactive." 403
  let latest ← orThrow t.user inactive
  rejectIf (latest.isActive = false ∨ latest.deactivatedAt.isSome = true) inactive
  rejectIf (sid.any fun id => !t.hasSession id) (httpError "Your session ended. Sign in again." 401)
  rejectIf (latest.passwordHash ≠ read)
    (httpError "Your password changed in another session. Enter your current password again." 409
      (some "CURRENT_PASSWORD_CHANGED"))
  return { t.storePassword newPassword with passwordResetTokens := [], refreshTokens := [] }

/-- `activeSession`. -/
def activeSession (sid : Nat) (t : AuthTables) : Except HttpError AuthAccount := do
  let ended := httpError "Your session ended. Sign in again before managing your password." 401
    (some "SESSION_EXPIRED")
  let user ← orThrow t.user ended
  rejectIf (user.isActive = false ∨ user.deactivatedAt.isSome = true ∨ user.moderationStatus = .banned
    ∨ t.hasSession sid = false) ended
  return user

def passwordAlreadySet : HttpError :=
  httpError "A password is already set. Use Change Password." 409 (some "PASSWORD_ALREADY_SET")

def signInMethodsChanged : HttpError :=
  httpError "Your sign-in methods changed. Verify again." 409 (some "SIGN_IN_METHODS_CHANGED")

/-- The transaction of `verifyPasswordSetup`, after Google has verified the subject. -/
def verifyPasswordSetup (sid verifiedSubject : Nat) (sameEmail linkedElsewhere : Bool) (t : AuthTables) :
    Except HttpError AuthTables := do
  let user ← t.activeSession sid
  rejectIf (user.passwordState = .set) passwordAlreadySet
  rejectIf (user.googleSubject.any (· ≠ verifiedSubject)) signInMethodsChanged
  rejectIf (user.googleSubject = none ∧ (user.passwordState ≠ .legacyUnconfirmed ∨ sameEmail = false))
    signInMethodsChanged
  rejectIf (user.googleSubject = none ∧ linkedElsewhere = true)
    (httpError "This Google account is connected to another ServiceHub account." 409
      (some "SIGN_IN_METHODS_CHANGED"))
  return { t.updateUser ({ · with googleSubject := some verifiedSubject }) with
    grants := t.grants ++ [{
      sid, googleSubject := verifiedSubject, version := user.passwordHash
      expiresAt := t.now + grantTtlMs }] }

/-- `setUserPassword`; a grant that was not signed or has expired is not accepted. -/
def setUserPassword (grant : PasswordGrant) (newPassword : String) (t : AuthTables) :
    Except HttpError AuthTables := do
  let user ← t.activeSession grant.sid
  rejectIf (grant ∉ t.grants ∨ grant.expiresAt ≤ t.now)
    (httpError "Google verification expired. Verify with Google again." 403
      (some "GOOGLE_VERIFICATION_EXPIRED"))
  rejectIf (user.passwordState = .set) passwordAlreadySet
  rejectIf (user.googleSubject ≠ some grant.googleSubject ∨ user.passwordHash ≠ grant.version)
    signInMethodsChanged
  return { t.storePassword newPassword with
    passwordResetTokens := []
    refreshTokens := t.refreshTokens.filter (·.id == grant.sid) }

/-- A transaction of a call; an exception ends the call. -/
def commit (run : Except HttpError (AuthTables × Option AuthCall)) (t : AuthTables) :
    AuthTables × Option AuthCall :=
  match run with
  | .ok done => done
  | .error _ => (t, none)

/-- Execute the next statement or transaction of a call. -/
def resume (t : AuthTables) : AuthCall → AuthTables × Option AuthCall
  | .register password => t.commit do
      let (after, next) ← t.registerUser password
      return (after, some next)
  | .login password => t.commit do return (t, some (← t.loginUser password))
  | .google subject byEmail => t.commit do
      let (after, next) ← t.googleLoginUser subject byEmail
      return (after, some next)
  | .googleLink subject => t.commit do
      let (after, next) ← t.linkGoogle subject
      return (after, some next)
  | .issue passwordAuthenticated expectedPasswordHash => t.commit do
      return (← t.issueTokens passwordAuthenticated expectedPasswordHash, none)
  | .refresh token => t.commit do return (t, some (← t.resolveToken token))
  | .refreshAccount token sid => t.commit do return (t, some (← t.resolveTokenUser token sid))
  | .rotate token sid => t.commit do return (← t.rotateToken token sid, none)
  | .forgot => (t, if t.user.any AuthAccount.resettable then some .forgotInvalidate else none)
  | .forgotInvalidate => ({ t with passwordResetTokens := [] }, some .forgotCreate)
  | .forgotCreate => (t.createResetToken, none)
  | .reset token newPassword => t.commit do return (t, some (← t.readResetToken token newPassword))
  | .resetCommit token newPassword => t.commit do return (← t.resetPassword token newPassword, none)
  | .change currentPassword newPassword sid => t.commit do
      return (t, some (← t.readCurrentPassword currentPassword newPassword sid))
  | .changeCommit read newPassword sid => t.commit do
      return (← t.changeUserPassword read newPassword sid, none)
  | .verifySetup sid verifiedSubject sameEmail linkedElsewhere => t.commit do
      return (← t.verifyPasswordSetup sid verifiedSubject sameEmail linkedElsewhere, none)
  | .setPassword grant newPassword => t.commit do return (← t.setUserPassword grant newPassword, none)

end AuthTables

/-- A call in flight, with the number of its request. -/
structure AuthRequest where
  number : Nat
  call : AuthCall
  deriving Repr, DecidableEq

structure AuthSystem where
  tables : AuthTables
  calls : List AuthRequest := []
  nextRequest : Nat := 0
  deriving Repr, DecidableEq

/-- The entry points of the authentication services. -/
inductive AuthEntry where
  | registerUser (password : String)
  | loginUser (password : String)
  | googleLoginUser (subject : Nat) (byEmail : Bool)
  | refreshAccessToken (token : RefreshTokenString)
  | forgotPassword
  | resetPassword (token : Nat) (newPassword : String)
  | changeUserPassword (currentPassword newPassword : String) (sid : Option Nat)
  | verifyPasswordSetup (sid : Nat) (verifiedSubject : Nat) (sameEmail linkedElsewhere : Bool)
  | setUserPassword (grant : PasswordGrant) (newPassword : String)
  deriving Repr, DecidableEq

def AuthEntry.first : AuthEntry → AuthCall
  | .registerUser password => .register password
  | .loginUser password => .login password
  | .googleLoginUser subject byEmail => .google subject byEmail
  | .refreshAccessToken token => .refresh token
  | .forgotPassword => .forgot
  | .resetPassword token newPassword => .reset token newPassword
  | .changeUserPassword currentPassword newPassword sid => .change currentPassword newPassword sid
  | .verifyPasswordSetup sid verifiedSubject sameEmail linkedElsewhere =>
      .verifySetup sid verifiedSubject sameEmail linkedElsewhere
  | .setUserPassword grant newPassword => .setPassword grant newPassword

inductive AuthAction where
  | call (entry : AuthEntry)
  | resume (k : Nat)
  | crash (k : Nat)
  /-- `logoutUser`. -/
  | signOut (sid : Nat)
  /-- Moderation, deactivation and restoration of the account. -/
  | moderate (isActive : Bool) (deactivatedAt : Option Millis) (moderationStatus : AccountModerationStatus)
  | wait (time : Millis)
  deriving Repr, DecidableEq

def AuthSystem.step (s : AuthSystem) : AuthAction → Option AuthSystem
  | .call entry => some { s with
      calls := s.calls ++ [⟨s.nextRequest, entry.first⟩], nextRequest := s.nextRequest + 1 }
  | .resume k => (s.calls[k]?).map fun request =>
      let (tables, next) := s.tables.resume request.call
      { s with tables, calls := Threads.proceed s.calls k (next.map ({ request with call := · })) }
  | .crash k => if k < s.calls.length then some { s with calls := Threads.proceed s.calls k none } else none
  | .signOut sid => some { s with tables := { s.tables with
      refreshTokens := s.tables.refreshTokens.filter (·.id != sid) } }
  | .moderate isActive deactivatedAt moderationStatus => some { s with
      tables := s.tables.updateUser ({ · with isActive, deactivatedAt, moderationStatus }) }
  | .wait time => some { s with tables := { s.tables with now := s.tables.now + time } }

/-- The account is not registered yet, or its row is an old one without sessions. -/
def authMachine : Machine AuthSystem AuthAction where
  initial s := s.tables.refreshTokens = [] ∧ s.tables.passwordResetTokens = [] ∧ s.tables.grants = []
    ∧ s.calls = [] ∧ ∀ u, s.tables.user = some u → u.passwordHash.salt < s.tables.nextSalt
  next := AuthSystem.step

end ServiceHub
