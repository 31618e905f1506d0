import SubTrackr.Lib.Store

namespace SubTrackr.Roles

open Lib

inductive Resource where
  | subscriptions | plans | users | billing | analytics | settings | features | apiKeys | auditLogs | webhooks | campaigns
  | supportTickets | fraudRules
  deriving DecidableEq

inductive Operation where
  | create | read | update | delete | manage
  deriving DecidableEq

inductive Effect where
  | allow | deny
  deriving DecidableEq

structure Permission where
  resource : Resource
  actions : List Operation
  effect : Option Effect := none

inductive Role where
  | admin | manager | viewer
  deriving DecidableEq

namespace Role

def text : Role → String
  | admin => "admin"
  | manager => "manager"
  | viewer => "viewer"

def level : Role → ℕ
  | admin => 100
  | manager => 50
  | viewer => 10

def permissions : Role → List Permission
  | admin =>
    [{ resource := .subscriptions, actions := [.create, .read, .update, .delete, .manage] },
     { resource := .plans, actions := [.create, .read, .update, .delete, .manage] },
     { resource := .users, actions := [.create, .read, .update, .delete, .manage] },
     { resource := .billing, actions := [.create, .read, .update, .delete, .manage] },
     { resource := .analytics, actions := [.create, .read, .update, .delete, .manage] },
     { resource := .settings, actions := [.create, .read, .update, .delete, .manage] },
     { resource := .features, actions := [.create, .read, .update, .delete, .manage] },
     { resource := .apiKeys, actions := [.create, .read, .update, .delete, .manage] },
     { resource := .auditLogs, actions := [.read, .manage] },
     { resource := .webhooks, actions := [.create, .read, .update, .delete, .manage] },
     { resource := .campaigns, actions := [.create, .read, .update, .delete, .manage] },
     { resource := .supportTickets, actions := [.create, .read, .update, .delete, .manage] },
     { resource := .fraudRules, actions := [.create, .read, .update, .delete, .manage] }]
  | manager =>
    [{ resource := .subscriptions, actions := [.create, .read, .update] },
     { resource := .plans, actions := [.read, .update] },
     { resource := .users, actions := [.read] },
     { resource := .billing, actions := [.read, .update] },
     { resource := .analytics, actions := [.read] },
     { resource := .features, actions := [.read] },
     { resource := .apiKeys, actions := [.read, .create] },
     { resource := .webhooks, actions := [.read, .create, .update] },
     { resource := .campaigns, actions := [.read, .create, .update] },
     { resource := .supportTickets, actions := [.read, .update] }]
  | viewer =>
    [{ resource := .subscriptions, actions := [.read] },
     { resource := .plans, actions := [.read] },
     { resource := .users, actions := [.read] },
     { resource := .billing, actions := [.read] },
     { resource := .analytics, actions := [.read] },
     { resource := .features, actions := [.read] },
     { resource := .auditLogs, actions := [.read] },
     { resource := .webhooks, actions := [.read] },
     { resource := .campaigns, actions := [.read] },
     { resource := .supportTickets, actions := [.read] }]

end Role

def checkPermissions (permissions : List Permission) (resource : Resource) (action : Operation) : Bool :=
  let resourcePerms := permissions.filter fun p => p.resource = resource ∧ p.effect ≠ some .deny
  resourcePerms.any fun p => p.actions.contains .manage || p.actions.contains action

/-- The elevation that the assigner of a role was under, with the role that the assigner had without it. -/
structure Origin where
  elevation : ℕ
  ownRole : Role
  deriving DecidableEq

/-- `origin` is what no code reads: how the role came to be assigned. -/
structure RoleAssignment where
  role : Role
  assignedBy : String
  assignedAt : ℤ
  expiresAt : Option ℤ := none
  origin : Option Origin := none
  deriving DecidableEq

def isPast (expiresAt : Option ℤ) (now : ℤ) : Bool := expiresAt.any fun t => t ≠ 0 ∧ t < now

def RoleAssignment.expired (a : RoleAssignment) (now : ℤ) : Bool := isPast a.expiresAt now

structure TemporaryElevation where
  id : ℕ
  userId : String
  (elevatedRole originalRole : Role)
  (grantedBy reason : String)
  expiresAt : ℤ
  active : Bool := true
  deriving DecidableEq

def TemporaryElevation.inForce (e : TemporaryElevation) (now : ℤ) : Bool := e.active && decide (now < e.expiresAt)

structure State where
  assignments : Store String RoleAssignment := fun _ => none
  elevations : List TemporaryElevation := []
  bootstrapped : Bool := false
  now : ℤ := 0

namespace State

variable (s : State)

def bootstrap (userId : String) : Except String State :=
  if s.bootstrapped then .error "System already bootstrapped"
  else .ok { s with
    assignments := put s.assignments userId { role := .admin, assignedBy := "system", assignedAt := s.now }
    bootstrapped := true }

def dropExpired (userId : String) : State :=
  { s with assignments := dropWhen (fun a => a.expired s.now) s.assignments userId }

def getAssignment (userId : String) : Option RoleAssignment := (s.assignments userId).filter fun a => !a.expired s.now

def getActiveElevation (userId : String) : Option TemporaryElevation :=
  s.elevations.find? fun e => decide (e.userId = userId) && e.inForce s.now

def getUserRole (userId : String) : Role :=
  match s.getAssignment userId with
  | none => .viewer
  | some assignment =>
    match s.getActiveElevation userId with
    | some elevation => elevation.elevatedRole
    | none => assignment.role

def canAssignRole (actorId : String) (targetRole : Role) : Bool := decide (targetRole.level ≤ (s.getUserRole actorId).level)

def originOf (actorId : String) : Option Origin :=
  (s.getAssignment actorId).bind fun a => (s.getActiveElevation actorId).map fun e => ⟨e.id, a.role⟩

def assignRole (userId : String) (role : Role) (assignedBy : String) (expiresAt : Option ℤ) : Except (State × String) State :=
  let checked := s.dropExpired assignedBy
  if s.canAssignRole assignedBy role then
    let assignment : RoleAssignment :=
      { role := role, assignedBy := assignedBy, assignedAt := s.now, expiresAt := expiresAt, origin := s.originOf assignedBy }
    .ok { checked with assignments := put checked.assignments userId assignment }
  else .error (checked, "Actor " ++ assignedBy ++ " cannot assign role " ++ role.text)

def revokeRole (userId : String) : Except String State :=
  match s.assignments userId with
  | none => .error ("No role assignment found for user " ++ userId)
  | some _ => .ok { s with assignments := remove s.assignments userId }

def grantTemporaryElevation (userId : String) (elevatedRole : Role) (grantedBy : String) (durationMs : ℤ) (reason : String) :
    Except (State × String) State :=
  let actorRole := s.getUserRole grantedBy
  let checked := s.dropExpired grantedBy
  if actorRole.level ≤ elevatedRole.level then
    .error (checked, "Actor with role " ++ actorRole.text ++ " cannot elevate to " ++ elevatedRole.text)
  else
    match s.getAssignment userId with
    | none => .error (checked.dropExpired userId, "User " ++ userId ++ " has no role assignment")
    | some existing =>
      let elevation : TemporaryElevation :=
        { id := s.elevations.length, userId := userId, elevatedRole := elevatedRole, originalRole := existing.role
          grantedBy := grantedBy, reason := reason, expiresAt := s.now + durationMs }
      .ok { checked with elevations := s.elevations ++ [elevation] }

def revokeElevation (elevationId : ℕ) : Except String State :=
  match s.elevations[elevationId]? with
  | none => .error ("Elevation " ++ toString elevationId ++ " not found")
  | some _ => .ok { s with elevations := s.elevations.modify elevationId fun e => { e with active := false } }

def hasPermission (userId : String) (resource : Resource) (action : Operation) (allowElevated : Bool) : Bool :=
  let permissions := (s.getUserRole userId).permissions
  match allowElevated, s.getActiveElevation userId with
  | false, some elevation => checkPermissions elevation.originalRole.permissions resource action
  | _, _ => checkPermissions permissions resource action

end State

inductive Action where
  | tick (ms : ℕ)
  | bootstrap (userId : String)
  | assignRole (userId : String) (role : Role) (assignedBy : String) (expiresAt : Option ℤ)
  | revokeRole (userId revokedBy : String)
  | grantTemporaryElevation (userId : String) (elevatedRole : Role) (grantedBy : String) (durationMs : ℤ) (reason : String)
  | revokeElevation (elevationId : ℕ) (revokedBy : String)
  | hasPermission (userId : String) (resource : Resource) (action : Operation) (allowElevated : Bool)

def State.step (s : State) : Action → State
  | .tick ms => { s with now := s.now + ms }
  | .bootstrap userId =>
    match s.bootstrap userId with
    | .ok s' => s'
    | .error _ => s
  | .assignRole userId role assignedBy expiresAt =>
    match s.assignRole userId role assignedBy expiresAt with
    | .ok s' => s'
    | .error (s', _) => s'
  | .revokeRole userId _ =>
    match s.revokeRole userId with
    | .ok s' => s'
    | .error _ => s
  | .grantTemporaryElevation userId elevatedRole grantedBy durationMs reason =>
    match s.grantTemporaryElevation userId elevatedRole grantedBy durationMs reason with
    | .ok s' => s'
    | .error (s', _) => s'
  | .revokeElevation elevationId _ =>
    match s.revokeElevation elevationId with
    | .ok s' => s'
    | .error _ => s
  | .hasPermission userId _ _ _ => s.dropExpired userId

end SubTrackr.Roles
