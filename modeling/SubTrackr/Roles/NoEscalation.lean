import SubTrackr.Lib.Histories
import SubTrackr.Roles.AccessControlService
import Mathlib.Data.List.Find

namespace SubTrackr.Roles

open Option List Lib

namespace State

variable (s : State)

def assignedRole (userId : String) : Role := ((s.getAssignment userId).map RoleAssignment.role).getD .viewer

def activeWithout (elevationId : ℕ) (userId : String) : Option TemporaryElevation :=
  s.elevations.find? fun e => decide (e.id ≠ elevationId) && (decide (e.userId = userId) && e.inForce s.now)

end State

structure Sound (s : State) : Prop where
  effective : ∀ u, s.getActiveElevation u = none → s.getUserRole u = s.assignedRole u
  assigned : ∀ u a origin, s.getAssignment u = some a → a.origin = some origin →
    (∀ e, s.elevations[origin.elevation]? = some e → e.inForce s.now = false) → a.role.level ≤ origin.ownRole.level

def Action.actor? : Action → Option String
  | .assignRole _ _ assignedBy _ => some assignedBy
  | .revokeRole _ revokedBy => some revokedBy
  | .grantTemporaryElevation _ _ grantedBy _ _ => some grantedBy
  | .revokeElevation _ revokedBy => some revokedBy
  | .tick _ | .bootstrap _ | .hasPermission .. => none

def Given (s : State) : Action → Prop
  | .assignRole userId role assignedBy expiresAt =>
    (s.assignRole userId role assignedBy expiresAt).toBool = true → role.level ≤ (s.getUserRole assignedBy).level
  | .grantTemporaryElevation userId elevatedRole grantedBy durationMs reason =>
    (s.grantTemporaryElevation userId elevatedRole grantedBy durationMs reason).toBool = true →
      elevatedRole.level ≤ (s.getUserRole grantedBy).level
  | _ => True

structure Lawful (s : State) (action : Action) : Prop where
  lowered : ∀ actor, action.actor? = some actor → ∀ u, ((s.step action).getUserRole u).level < (s.getUserRole u).level →
    (s.getUserRole u).level ≤ (s.getUserRole actor).level
  removed : ∀ actor, action.actor? = some actor → ∀ u a, s.getAssignment u = some a →
    (∀ a', (s.step action).getAssignment u = some a' → a'.role.level < a.role.level) → a.role.level ≤ (s.getUserRole actor).level
  given : Given s action
  granted : ∀ u resource operation, action = .hasPermission u resource operation false →
    s.hasPermission u resource operation false = true → checkPermissions (s.assignedRole u).permissions resource operation = true

/-- A call lowers or removes no role above the actor's own, an elevated actor assigns a role above the own one only for a time
that ends before the elevation, which is not revoked meanwhile, and no user is asked for permissions without the elevation while
the elevation has another role on record than the assigned one that carries more. -/
def Careful (s : State) : Action → Prop
  | .assignRole userId role assignedBy expiresAt => role.level ≤ (s.getUserRole assignedBy).level →
    (∀ a, s.getAssignment userId = some a →
      (role.level < a.role.level ∨ isPast expiresAt s.now = true → a.role.level ≤ (s.getUserRole assignedBy).level) ∧
      (isPast expiresAt s.now = true → (s.getUserRole userId).level ≤ (s.getUserRole assignedBy).level)) ∧
    ∀ origin, s.originOf assignedBy = some origin → origin.ownRole.level < role.level →
      ∀ e, s.elevations[origin.elevation]? = some e → ∃ t, expiresAt = some t ∧ t ≠ 0 ∧ t < e.expiresAt
  | .revokeRole userId revokedBy => ∀ a, s.getAssignment userId = some a →
    a.role.level ≤ (s.getUserRole revokedBy).level ∧ (s.getUserRole userId).level ≤ (s.getUserRole revokedBy).level
  | .grantTemporaryElevation userId elevatedRole grantedBy durationMs _ => elevatedRole.level < (s.getUserRole grantedBy).level →
    0 < durationMs → s.getActiveElevation userId = none → ∀ a, s.getAssignment userId = some a →
    elevatedRole.level < a.role.level → a.role.level ≤ (s.getUserRole grantedBy).level
  | .revokeElevation elevationId revokedBy => ∀ e, s.elevations[elevationId]? = some e →
    (∀ a, s.getAssignment e.userId = some a →
      (((s.activeWithout elevationId e.userId).map (·.elevatedRole)).getD a.role).level < (s.getUserRole e.userId).level →
      (s.getUserRole e.userId).level ≤ (s.getUserRole revokedBy).level) ∧
    ∀ u a origin, s.getAssignment u = some a → a.origin = some origin → origin.elevation = elevationId →
      a.role.level ≤ origin.ownRole.level
  | .hasPermission userId resource operation false => ∀ e, s.getActiveElevation userId = some e →
    checkPermissions e.originalRole.permissions resource operation = true →
    checkPermissions (s.assignedRole userId).permissions resource operation = true
  | _ => True

section Lookups

variable {s s' : State} {u v : String} {a : RoleAssignment} {role : Role}

theorem isPast_eq_false {expiresAt : Option ℤ} {now : ℤ} :
    isPast expiresAt now = false ↔ ∀ t, expiresAt = some t → t ≠ 0 → now ≤ t := by
  cases expiresAt with
  | none => simp [isPast]
  | some t => simp [isPast]

theorem viewer_le (role : Role) : Role.viewer.level ≤ role.level := by
  cases role <;> decide

theorem le_admin (role : Role) : role.level ≤ Role.admin.level := by
  cases role <;> decide

theorem getUserRole_of_none (none : s.getAssignment u = none) : s.getUserRole u = .viewer := by
  simp only [State.getUserRole, none]

theorem getUserRole_of_some (assigned : s.getAssignment u = some a) :
    s.getUserRole u = ((s.getActiveElevation u).map (·.elevatedRole)).getD a.role := by
  simp only [State.getUserRole, assigned]
  cases s.getActiveElevation u <;> rfl

theorem getUserRole_congr (assignment : s'.getAssignment u = s.getAssignment u)
    (elevation : s'.getActiveElevation u = s.getActiveElevation u) : s'.getUserRole u = s.getUserRole u := by
  simp only [State.getUserRole, assignment, elevation]

theorem getAssignment_dropExpired (s : State) (u v : String) : (s.dropExpired u).getAssignment v = s.getAssignment v := by
  unfold State.getAssignment State.dropExpired
  dsimp only
  rw [dropWhen_apply]
  split
  · rename_i here
    subst here
    cases s.assignments v with
    | none => rfl
    | some a => cases a.expired s.now <;> simp
  · rfl

theorem getUserRole_dropExpired (s : State) (u v : String) : (s.dropExpired u).getUserRole v = s.getUserRole v :=
  getUserRole_congr (getAssignment_dropExpired s u v) rfl

theorem getAssignment_eq_some : s.getAssignment u = some a ↔ s.assignments u = some a ∧ a.expired s.now = false := by
  unfold State.getAssignment
  rw [filter_eq_some_iff]
  simp

end Lookups

structure Inv (s : State) : Prop where
  ids : ∀ (i : ℕ) (e : TemporaryElevation), s.elevations[i]? = some e → e.id = i
  origins : ∀ u a origin, s.getAssignment u = some a → a.origin = some origin → origin.ownRole.level < a.role.level →
    ∃ e, s.elevations[origin.elevation]? = some e ∧ e.active = true ∧ ∃ t, a.expiresAt = some t ∧ t ≠ 0 ∧ t < e.expiresAt

theorem inv_initial (now : ℤ) : Inv { now := now } where
  ids := by simp
  origins u a _ assigned := by cases assigned

section Invariant

variable {s s' : State} {u v : String} {a : RoleAssignment} {role : Role} {x : String} {expiresAt : Option ℤ}

theorem Inv.sound (inv : Inv s) : Sound s where
  effective u none := by
    unfold State.getUserRole State.assignedRole
    rw [none]
    cases s.getAssignment u <;> rfl
  assigned u a origin assigned under ended := by
    by_contra above
    obtain ⟨e, found, active, t, expires, nonzero, before⟩ := inv.origins u a origin assigned under (not_le.mp above)
    have late := isPast_eq_false.mp (getAssignment_eq_some.mp assigned).2 t expires nonzero
    have past := ended e found
    simp only [TemporaryElevation.inForce, active, Bool.true_and, decide_eq_false_iff_not, not_lt] at past
    omega

theorem Inv.quiet (inv : Inv s) (assignments : ∀ u a, s'.getAssignment u = some a → a.origin = none ∨ s.getAssignment u = some a)
    (elevations : ∀ (i : ℕ) (e : TemporaryElevation), s.elevations[i]? = some e → s'.elevations[i]? = some e)
    (ids : ∀ (i : ℕ) (e : TemporaryElevation), s'.elevations[i]? = some e → e.id = i) : Inv s' where
  ids := ids
  origins u a origin assigned under above := by
    rcases assignments u a assigned with none | old
    · rw [none] at under
      cases under
    · obtain ⟨e, found, rest⟩ := inv.origins u a origin old under above
      exact ⟨e, elevations _ e found, rest⟩

theorem Inv.dropExpired (inv : Inv s) (u : String) : Inv (s.dropExpired u) :=
  inv.quiet (fun v a assigned => .inr (by rwa [getAssignment_dropExpired] at assigned)) (fun _ _ found => found) inv.ids

theorem Inv.tick (inv : Inv s) (ms : ℕ) : Inv (s.step (.tick ms)) := by
  refine inv.quiet (fun u a assigned => .inr ?_) (fun _ _ found => found) inv.ids
  obtain ⟨held, fresh⟩ := getAssignment_eq_some.mp assigned
  refine getAssignment_eq_some.mpr ⟨held, isPast_eq_false.mpr fun t expires nonzero => ?_⟩
  have later : s.now + ms ≤ t := isPast_eq_false.mp fresh t expires nonzero
  omega

end Invariant

theorem lawful_of_same {s : State} {action : Action} (roles : ∀ v, (s.step action).getUserRole v = s.getUserRole v)
    (assignments : ∀ v, (s.step action).getAssignment v = s.getAssignment v) (given : Given s action)
    (granted : ∀ u resource operation, action = .hasPermission u resource operation false →
      s.hasPermission u resource operation false = true →
      checkPermissions (s.assignedRole u).permissions resource operation = true) : Lawful s action where
  lowered actor _ u lower := by
    rw [roles] at lower
    exact absurd lower (lt_irrefl _)
  removed actor _ u a assigned lower := by
    rw [assignments] at lower
    exact absurd (lower a assigned) (lt_irrefl _)
  given := given
  granted := granted

section Assigning

variable {s s' : State} {u v x : String} {role : Role} {expiresAt : Option ℤ}

theorem getAssignment_put (s : State) (u v : String) (a : RoleAssignment) :
    State.getAssignment { s with assignments := put s.assignments u a } v =
      if v = u then (if a.expired s.now then none else some a) else s.getAssignment v := by
  unfold State.getAssignment
  dsimp only
  rw [put_apply]
  split
  · cases expired : a.expired s.now <;> simp [expired]
  · rfl

theorem Inv.bootstrap (inv : Inv s) (user : String) : Inv (s.step (.bootstrap user)) := by
  simp only [State.step, State.bootstrap]
  split
  · rename_i done
    split at done
    · cases done
    · cases done
      refine inv.quiet (fun u a assigned => ?_) (fun _ _ found => found) inv.ids
      have before : State.getAssignment { s with assignments := put s.assignments user ⟨.admin, "system", s.now, none, none⟩ } u =
          some a := assigned
      rw [getAssignment_put] at before
      split at before
      · cases before
        exact .inl rfl
      · exact .inr before
  · exact inv

def newAssignment (s : State) (role : Role) (x : String) (expiresAt : Option ℤ) : RoleAssignment where
  role := role
  assignedBy := x
  assignedAt := s.now
  expiresAt := expiresAt
  origin := s.originOf x

theorem step_assignRole (s : State) (u : String) (role : Role) (x : String) (expiresAt : Option ℤ) :
    s.step (.assignRole u role x expiresAt) = if role.level ≤ (s.getUserRole x).level then
      { s.dropExpired x with assignments := put (s.dropExpired x).assignments u (newAssignment s role x expiresAt) }
    else s.dropExpired x := by
  simp only [State.step, State.assignRole, State.canAssignRole, decide_eq_true_eq]
  by_cases enough : role.level ≤ (s.getUserRole x).level
  · simp only [if_pos enough]
    rfl
  · simp only [if_neg enough]

theorem getAssignment_step_assignRole (accepted : role.level ≤ (s.getUserRole x).level) (v : String) :
    (s.step (.assignRole u role x expiresAt)).getAssignment v =
      if v = u then (if isPast expiresAt s.now then none else some (newAssignment s role x expiresAt)) else s.getAssignment v := by
  rw [step_assignRole, if_pos accepted, getAssignment_put, getAssignment_dropExpired]
  rfl

theorem originOf_eq_some {origin : Origin} (under : s.originOf x = some origin) : ∃ a e, s.getAssignment x = some a ∧
    s.getActiveElevation x = some e ∧ origin = ⟨e.id, a.role⟩ := by
  unfold State.originOf at under
  obtain ⟨a, assigned, elevated⟩ := bind_eq_some_iff.mp under
  obtain ⟨e, active, rfl⟩ := map_eq_some_iff.mp elevated
  exact ⟨a, e, assigned, active, rfl⟩

theorem Inv.found (inv : Inv s) {e : TemporaryElevation} (active : s.getActiveElevation u = some e) :
    s.elevations[e.id]? = some e ∧ e.userId = u ∧ e.inForce s.now = true := by
  have mem := mem_of_find?_eq_some active
  have tests := find?_some active
  simp only [Bool.and_eq_true, decide_eq_true_eq] at tests
  obtain ⟨i, found⟩ := getElem?_of_mem mem
  rw [inv.ids i e found]
  exact ⟨found, tests⟩

theorem Inv.assignRole (inv : Inv s) (careful : Careful s (.assignRole u role x expiresAt)) :
    Inv (s.step (.assignRole u role x expiresAt)) := by
  by_cases accepted : role.level ≤ (s.getUserRole x).level
  · have elevations : (s.step (.assignRole u role x expiresAt)).elevations = s.elevations := by
      rw [step_assignRole, if_pos accepted]
      rfl
    refine ⟨by rw [elevations]; exact inv.ids, fun v a origin assigned under above => ?_⟩
    rw [elevations]
    rw [getAssignment_step_assignRole accepted] at assigned
    split at assigned
    · split at assigned
      · cases assigned
      · cases assigned
        obtain ⟨a, e, assigned, active, rfl⟩ := originOf_eq_some under
        obtain ⟨found, -, force⟩ := inv.found active
        have active_flag : e.active = true := (Bool.and_eq_true_iff.mp force).1
        exact ⟨e, found, active_flag, (careful accepted).2 _ under above e found⟩
    · exact inv.origins v a origin assigned under above
  · rw [step_assignRole, if_neg accepted]
    exact inv.dropExpired x

theorem lawful_assignRole (careful : Careful s (.assignRole u role x expiresAt)) : Lawful s (.assignRole u role x expiresAt) := by
  by_cases accepted : role.level ≤ (s.getUserRole x).level
  · have assignments (v : String) : (s.step (.assignRole u role x expiresAt)).getAssignment v =
        if v = u then (if isPast expiresAt s.now then none else some (newAssignment s role x expiresAt)) else s.getAssignment v :=
      getAssignment_step_assignRole accepted v
    have elevations : ∀ v, (s.step (.assignRole u role x expiresAt)).getActiveElevation v = s.getActiveElevation v := by
      intro v
      rw [step_assignRole, if_pos accepted]
      rfl
    have promised := (careful accepted).1
    have same : ∀ v, v ≠ u → (s.step (.assignRole u role x expiresAt)).getAssignment v = s.getAssignment v := fun v other => by
      rw [assignments, if_neg other]
    refine ⟨?_, ?_, fun _ => accepted, fun _ _ _ same => by cases same⟩
    · intro actor made v lower
      cases made
      by_cases here : v = u
      · subst here
        cases assigned : s.getAssignment v with
        | none =>
          rw [getUserRole_of_none assigned] at lower
          exact absurd lower (not_lt.mpr (viewer_le _))
        | some a =>
          cases past : isPast expiresAt s.now with
          | true => exact (promised a assigned).2 past
          | false =>
            have next : (s.step (.assignRole v role x expiresAt)).getAssignment v = some (newAssignment s role x expiresAt) := by
              simp [assignments, past]
            rw [getUserRole_of_some next, getUserRole_of_some assigned, elevations] at lower
            rw [getUserRole_of_some assigned]
            cases active : s.getActiveElevation v with
            | some e =>
              rw [active] at lower
              exact absurd lower (lt_irrefl _)
            | none =>
              rw [active] at lower
              exact (promised a assigned).1 (.inl lower)
      · rw [getUserRole_congr (same v here) (elevations v)] at lower
        exact absurd lower (lt_irrefl _)
    · intro actor made v a assigned lower
      cases made
      by_cases here : v = u
      · subst here
        cases past : isPast expiresAt s.now with
        | true => exact (promised a assigned).1 (.inr past)
        | false => exact (promised a assigned).1 (.inl (lower (newAssignment s role x expiresAt) (by simp [assignments, past])))
      · exact absurd (lower a ((same v here).trans assigned)) (lt_irrefl _)
  · have kept : s.step (.assignRole u role x expiresAt) = s.dropExpired x := by rw [step_assignRole, if_neg accepted]
    refine lawful_of_same (fun v => by rw [kept, getUserRole_dropExpired]) (fun v => by rw [kept, getAssignment_dropExpired])
      (fun done => ?_) fun _ _ _ same => by cases same
    simp [State.assignRole, State.canAssignRole, accepted, Except.toBool] at done

end Assigning

section Revoking

variable {s : State} {u v x : String}

theorem getAssignment_remove (s : State) (u v : String) :
    State.getAssignment { s with assignments := remove s.assignments u } v = if v = u then none else s.getAssignment v := by
  unfold State.getAssignment
  dsimp only
  rw [remove_apply]
  split
  · rfl
  · rfl

theorem getAssignment_step_revokeRole (s : State) (u x v : String) :
    (s.step (.revokeRole u x)).getAssignment v = if v = u then none else s.getAssignment v := by
  simp only [State.step, State.revokeRole]
  cases held : s.assignments u with
  | some a => exact getAssignment_remove s u v
  | none =>
    dsimp only
    split
    · rename_i here
      rw [here, State.getAssignment, held]
      rfl
    · rfl

theorem elevations_step_revokeRole (s : State) (u x : String) :
    (s.step (.revokeRole u x)).elevations = s.elevations ∧ (s.step (.revokeRole u x)).now = s.now := by
  simp only [State.step, State.revokeRole]
  cases s.assignments u with
  | some a => exact ⟨rfl, rfl⟩
  | none => exact ⟨rfl, rfl⟩

theorem Inv.revokeRole (inv : Inv s) (u x : String) : Inv (s.step (.revokeRole u x)) := by
  have elevations := (elevations_step_revokeRole s u x).1
  refine inv.quiet (fun v a assigned => .inr ?_) (fun i e found => by rw [elevations, found]) (by rw [elevations]; exact inv.ids)
  rw [getAssignment_step_revokeRole] at assigned
  split at assigned
  · cases assigned
  · exact assigned

theorem lawful_revokeRole (careful : Careful s (.revokeRole u x)) : Lawful s (.revokeRole u x) := by
  have elevations : ∀ v, (s.step (.revokeRole u x)).getActiveElevation v = s.getActiveElevation v := by
    intro v
    rw [State.getActiveElevation, State.getActiveElevation, (elevations_step_revokeRole s u x).1, (elevations_step_revokeRole s u x).2]
  have same : ∀ v, v ≠ u → (s.step (.revokeRole u x)).getAssignment v = s.getAssignment v := fun v other => by
    rw [getAssignment_step_revokeRole, if_neg other]
  refine ⟨?_, ?_, trivial, fun _ _ _ same => by cases same⟩
  · intro actor made v lower
    cases made
    by_cases here : v = u
    · subst here
      cases assigned : s.getAssignment v with
      | none =>
        rw [getUserRole_of_none assigned] at lower
        exact absurd lower (not_lt.mpr (viewer_le _))
      | some a => exact (careful a assigned).2
    · rw [getUserRole_congr (same v here) (elevations v)] at lower
      exact absurd lower (lt_irrefl _)
  · intro actor made v a assigned lower
    cases made
    by_cases here : v = u
    · subst here
      exact (careful a assigned).1
    · exact absurd (lower a ((same v here).trans assigned)) (lt_irrefl _)

end Revoking

section Elevating

variable {s : State} {u v x reason : String} {role : Role} {durationMs : ℤ} {elevationId : ℕ}

theorem grant_cases (s : State) (u : String) (role : Role) (x : String) (durationMs : ℤ) (reason : String) :
    (∃ dropped : State, (∀ v, dropped.getAssignment v = s.getAssignment v) ∧ dropped.elevations = s.elevations ∧
      dropped.now = s.now ∧ s.step (.grantTemporaryElevation u role x durationMs reason) = dropped ∧
      (s.grantTemporaryElevation u role x durationMs reason).toBool = false) ∨
    (role.level < (s.getUserRole x).level ∧ ∃ a, s.getAssignment u = some a ∧
      s.step (.grantTemporaryElevation u role x durationMs reason) = { s.dropExpired x with
        elevations := s.elevations ++ [⟨s.elevations.length, u, role, a.role, x, reason, s.now + durationMs, true⟩] }) := by
  by_cases refused : (s.getUserRole x).level ≤ role.level
  · refine .inl ⟨s.dropExpired x, getAssignment_dropExpired s x, rfl, rfl, ?_, ?_⟩
    · simp only [State.step, State.grantTemporaryElevation, if_pos refused]
    · simp only [State.grantTemporaryElevation, if_pos refused]
      rfl
  · cases assigned : s.getAssignment u with
    | none =>
      refine .inl ⟨(s.dropExpired x).dropExpired u, fun v => ?_, rfl, rfl, ?_, ?_⟩
      · rw [getAssignment_dropExpired, getAssignment_dropExpired]
      · simp only [State.step, State.grantTemporaryElevation, if_neg refused, assigned]
      · simp only [State.grantTemporaryElevation, if_neg refused, assigned]
        rfl
    | some a =>
      refine .inr ⟨not_le.mp refused, a, rfl, ?_⟩
      simp only [State.step, State.grantTemporaryElevation, if_neg refused, assigned]

theorem Inv.grant (inv : Inv s) : Inv (s.step (.grantTemporaryElevation u role x durationMs reason)) := by
  rcases grant_cases s u role x durationMs reason with ⟨dropped, assignments, elevations, -, kept, -⟩ | ⟨-, a, -, granted⟩
  · rw [kept]
    exact inv.quiet (fun v a assigned => .inr (assignments v ▸ assigned)) (fun i e found => by rw [elevations, found])
      (by rw [elevations]; exact inv.ids)
  · rw [granted]
    refine inv.quiet (fun v b assigned => .inr ?_) (fun i e found => ?_) fun i e found => ?_
    · rw [← getAssignment_dropExpired s x v]
      exact assigned
    · have inside := (List.getElem?_eq_some_iff.mp found).1
      rw [List.getElem?_append_left inside, found]
    · rw [List.getElem?_append] at found
      split at found
      · exact inv.ids i e found
      · rename_i beyond
        obtain ⟨inside, rfl⟩ := List.getElem?_eq_some_iff.mp found
        simp only [List.length_singleton] at inside
        simp only [List.getElem_singleton]
        omega

theorem lawful_grant (careful : Careful s (.grantTemporaryElevation u role x durationMs reason)) :
    Lawful s (.grantTemporaryElevation u role x durationMs reason) := by
  rcases grant_cases s u role x durationMs reason with ⟨dropped, assignments, elevations, now, kept, refused⟩ |
    ⟨accepted, a, assigned, granted⟩
  · have active : ∀ v, dropped.getActiveElevation v = s.getActiveElevation v := by
      intro v
      rw [State.getActiveElevation, State.getActiveElevation, elevations, now]
    refine lawful_of_same (fun v => by rw [kept, getUserRole_congr (assignments v) (active v)]) (fun v => by rw [kept, assignments])
      (fun done => ?_) fun _ _ _ same => by cases same
    rw [refused] at done
    cases done
  · have assignments : ∀ v, (s.step (.grantTemporaryElevation u role x durationMs reason)).getAssignment v = s.getAssignment v := by
      intro v
      rw [granted, ← getAssignment_dropExpired s x v]
      rfl
    have active : ∀ v, (s.step (.grantTemporaryElevation u role x durationMs reason)).getActiveElevation v =
        (s.getActiveElevation v).or (if u = v ∧ 0 < durationMs then
          some ⟨s.elevations.length, u, role, a.role, x, reason, s.now + durationMs, true⟩ else none) := by
      intro v
      rw [granted, State.getActiveElevation, State.getActiveElevation]
      simp only [State.dropExpired, find?_append, find?_singleton, TemporaryElevation.inForce, Bool.true_and,
        Bool.and_eq_true, decide_eq_true_eq, lt_add_iff_pos_right]
      congr
    refine ⟨?_, ?_, fun _ => accepted.le, fun _ _ _ same => by cases same⟩
    · intro actor made v lower
      cases made
      cases there : s.getAssignment v with
      | none =>
        rw [getUserRole_of_none there] at lower
        exact absurd lower (not_lt.mpr (viewer_le _))
      | some b =>
        rw [getUserRole_of_some ((assignments v).trans there), getUserRole_of_some there, active] at lower
        rw [getUserRole_of_some there]
        cases before : s.getActiveElevation v with
        | some e =>
          rw [before] at lower
          exact absurd lower (lt_irrefl _)
        | none =>
          rw [before, none_or] at lower
          split at lower
          · rename_i granted_now
            obtain ⟨rfl, pos⟩ := granted_now
            exact careful accepted pos before b there lower
          · exact absurd lower (lt_irrefl _)
    · intro actor _ v b there lower
      exact absurd (lower b ((assignments v).trans there)) (lt_irrefl _)

theorem elevations_step_revokeElevation (s : State) (elevationId : ℕ) (x : String) :
    s.step (.revokeElevation elevationId x) =
      { s with elevations := s.elevations.modify elevationId fun e => { e with active := false } } := by
  simp only [State.step, State.revokeElevation]
  cases found : s.elevations[elevationId]? with
  | some e => rfl
  | none =>
    dsimp only
    rw [modify_eq_self (getElem?_eq_none_iff.mp found)]

theorem Inv.getActiveElevation_revoke (inv : Inv s) (elevationId : ℕ) (x v : String) :
    (s.step (.revokeElevation elevationId x)).getActiveElevation v = s.activeWithout elevationId v := by
  let revoke : TemporaryElevation → TemporaryElevation := fun e => if e.id = elevationId then { e with active := false } else e
  have mapped : s.elevations.modify elevationId (fun e => { e with active := false }) = s.elevations.map revoke := by
    refine ext_getElem? fun i => ?_
    rw [getElem?_modify, getElem?_map]
    cases found : s.elevations[i]? with
    | none => rfl
    | some e =>
      have own := inv.ids i e found
      by_cases here : elevationId = i
      · simp [revoke, here, own]
      · simp [revoke, here, own, Ne.symm here]
  have test : (fun e : TemporaryElevation => decide (e.userId = v) && e.inForce s.now) ∘ revoke =
      fun e => decide (e.id ≠ elevationId) && (decide (e.userId = v) && e.inForce s.now) := by
    funext e
    by_cases here : e.id = elevationId
    · simp [revoke, here, TemporaryElevation.inForce]
    · simp [revoke, here]
  rw [elevations_step_revokeElevation, State.getActiveElevation, State.activeWithout]
  dsimp only
  rw [mapped, find?_map, test]
  cases found : s.elevations.find? fun e => decide (e.id ≠ elevationId) && (decide (e.userId = v) && e.inForce s.now) with
  | none => rfl
  | some e =>
    have passed := find?_some found
    simp only [Bool.and_eq_true, decide_eq_true_eq] at passed
    rw [map_some]
    exact congrArg some (if_neg passed.1)

theorem getAssignment_step_revokeElevation (s : State) (elevationId : ℕ) (x v : String) :
    (s.step (.revokeElevation elevationId x)).getAssignment v = s.getAssignment v := by
  rw [elevations_step_revokeElevation]
  rfl

theorem Inv.activeWithout_eq (inv : Inv s) (other : ∀ e, s.elevations[elevationId]? = some e → e.userId ≠ v) :
    s.activeWithout elevationId v = s.getActiveElevation v := by
  unfold State.activeWithout State.getActiveElevation
  have tests : ∀ e ∈ s.elevations, (decide (e.id ≠ elevationId) && (decide (e.userId = v) && e.inForce s.now)) =
      (decide (e.userId = v) && e.inForce s.now) := by
    intro e mem
    by_cases here : e.id = elevationId
    · obtain ⟨i, found⟩ := getElem?_of_mem mem
      obtain rfl : i = elevationId := (inv.ids i e found).symm.trans here
      simp [other e found]
    · simp [here]
  exact find?_congr tests

theorem Inv.revokeElevation (inv : Inv s) (careful : Careful s (.revokeElevation elevationId x)) :
    Inv (s.step (.revokeElevation elevationId x)) := by
  have there : ∀ (i : ℕ) (e : TemporaryElevation), (s.step (.revokeElevation elevationId x)).elevations[i]? = some e →
      ∃ e₀, s.elevations[i]? = some e₀ ∧ e.id = e₀.id := by
    intro i e found
    rw [elevations_step_revokeElevation] at found
    dsimp only at found
    rw [getElem?_modify] at found
    obtain ⟨e₀, before, rfl⟩ := map_eq_some_iff.mp found
    refine ⟨e₀, before, ?_⟩
    split
    · rfl
    · rfl
  refine ⟨fun i e found => ?_, fun u a origin assigned under above => ?_⟩
  · obtain ⟨e₀, before, same⟩ := there i e found
    rw [same, inv.ids i e₀ before]
  · rw [getAssignment_step_revokeElevation] at assigned
    obtain ⟨e, found, active, t, rest⟩ := inv.origins u a origin assigned under above
    by_cases here : origin.elevation = elevationId
    · have low := (careful e (here ▸ found)).2 u a origin assigned under here
      omega
    · refine ⟨e, ?_, active, t, rest⟩
      rw [elevations_step_revokeElevation]
      dsimp only
      rw [getElem?_modify, found]
      simp [Ne.symm here]

theorem lawful_revokeElevation (inv : Inv s) (careful : Careful s (.revokeElevation elevationId x)) :
    Lawful s (.revokeElevation elevationId x) := by
  have assignments := getAssignment_step_revokeElevation s elevationId x
  have left := inv.getActiveElevation_revoke elevationId x
  refine ⟨?_, ?_, trivial, fun _ _ _ same => by cases same⟩
  · intro actor made v lower
    cases made
    by_cases mine : ∃ e, s.elevations[elevationId]? = some e ∧ e.userId = v
    · obtain ⟨e, found, rfl⟩ := mine
      cases assigned : s.getAssignment e.userId with
      | none =>
        rw [getUserRole_of_none assigned] at lower
        exact absurd lower (not_lt.mpr (viewer_le _))
      | some a =>
        rw [getUserRole_of_some ((assignments _).trans assigned), left] at lower
        exact (careful e found).1 a assigned lower
    · have same := inv.activeWithout_eq (v := v) fun e found named => mine ⟨e, found, named⟩
      rw [getUserRole_congr (assignments v) ((left v).trans same)] at lower
      exact absurd lower (lt_irrefl _)
  · intro actor _ v b there lower
    exact absurd (lower b ((assignments v).trans there)) (lt_irrefl _)

end Elevating

section Runs

variable {s : State} {action : Action}

theorem Inv.step (inv : Inv s) (careful : Careful s action) : Inv (s.step action) := by
  cases action with
  | tick ms => exact inv.tick ms
  | bootstrap user => exact inv.bootstrap user
  | assignRole u role x expiresAt => exact inv.assignRole careful
  | revokeRole u x => exact inv.revokeRole u x
  | grantTemporaryElevation u role x durationMs reason => exact inv.grant
  | revokeElevation elevationId x => exact inv.revokeElevation careful
  | hasPermission u resource operation allowElevated => exact inv.dropExpired u

theorem granted_of_careful {u : String} {resource : Resource} {operation : Operation}
    (careful : Careful s (.hasPermission u resource operation false)) (granted : s.hasPermission u resource operation false = true) :
    checkPermissions (s.assignedRole u).permissions resource operation = true := by
  unfold State.hasPermission at granted
  cases active : s.getActiveElevation u with
  | some e =>
    rw [active] at granted
    exact careful e active granted
  | none =>
    have own : s.getUserRole u = s.assignedRole u := by
      unfold State.getUserRole State.assignedRole
      rw [active]
      cases s.getAssignment u <;> rfl
    rw [active, own] at granted
    exact granted

theorem Inv.lawful (inv : Inv s) (careful : Careful s action) : Lawful s action := by
  cases action with
  | tick ms => exact ⟨fun _ made => (by cases made), fun _ made => (by cases made), trivial, fun _ _ _ same => by cases same⟩
  | bootstrap user => exact ⟨fun _ made => (by cases made), fun _ made => (by cases made), trivial, fun _ _ _ same => by cases same⟩
  | assignRole u role x expiresAt => exact lawful_assignRole careful
  | revokeRole u x => exact lawful_revokeRole careful
  | grantTemporaryElevation u role x durationMs reason => exact lawful_grant careful
  | revokeElevation elevationId x => exact lawful_revokeElevation inv careful
  | hasPermission u resource operation allowElevated =>
    refine ⟨fun _ made => (by cases made), fun _ made => (by cases made), trivial, fun v resource' operation' same granted => ?_⟩
    cases same
    exact granted_of_careful careful granted

theorem sound_of_careful (now : ℤ) (actions : List Action) (careful : Throughout State.step { now := now } Careful actions) :
    Sound (actions.foldl State.step { now := now }) ∧ Throughout State.step { now := now } Lawful actions := by
  have invariant : ∀ earlier : List Action, Throughout State.step { now := now } Careful earlier →
      Inv (earlier.foldl State.step { now := now }) := fun earlier fine =>
    fine.keeps Inv (inv_initial now) fun _ _ inv fine => inv.step fine
  refine ⟨(invariant actions careful).sound, fun earlier action later split => ?_⟩
  exact (invariant earlier (careful.before split)).lawful (careful earlier action later split)

def exampleActions : List Action :=
  [.bootstrap "root", .assignRole "ann" .viewer "root" none, .grantTemporaryElevation "ann" .manager "root" 1000 "cover",
    .hasPermission "ann" .subscriptions .update false, .tick 2000, .revokeRole "ann" "root"]

theorem sound_exampleActions : Sound (exampleActions.foldl State.step { now := 1 }) ∧
    Throughout State.step { now := 1 } Lawful exampleActions := by
  apply sound_of_careful
  have assigned : Careful ((exampleActions.take 1).foldl State.step { now := 1 }) (.assignRole "ann" .viewer "root" none) := by
    intro _
    have fresh : State.getAssignment ((exampleActions.take 1).foldl State.step { now := 1 }) "ann" = none := by decide
    have plain : State.originOf ((exampleActions.take 1).foldl State.step { now := 1 }) "root" = none := by decide
    refine ⟨fun a found => ?_, fun origin under => ?_⟩
    · rw [fresh] at found
      cases found
    · rw [plain] at under
      cases under
  have elevated : Careful ((exampleActions.take 2).foldl State.step { now := 1 })
      (.grantTemporaryElevation "ann" .manager "root" 1000 "cover") := by
    have administrator : State.getUserRole ((exampleActions.take 2).foldl State.step { now := 1 }) "root" = .admin := by decide
    intro _ _ _ a _ _
    rw [administrator]
    exact le_admin _
  have asked : Careful ((exampleActions.take 3).foldl State.step { now := 1 })
      (.hasPermission "ann" .subscriptions .update false) := by
    have active : State.getActiveElevation ((exampleActions.take 3).foldl State.step { now := 1 }) "ann" =
        some ⟨0, "ann", .manager, .viewer, "root", "cover", 1001, true⟩ := by decide
    intro e elevated carries
    rw [active] at elevated
    cases elevated
    exact absurd carries (by decide)
  have revoked : Careful ((exampleActions.take 5).foldl State.step { now := 1 }) (.revokeRole "ann" "root") := by
    have administrator : State.getUserRole ((exampleActions.take 5).foldl State.step { now := 1 }) "root" = .admin := by decide
    intro a _
    rw [administrator]
    exact ⟨le_admin _, le_admin _⟩
  exact .cons trivial (.cons assigned (.cons elevated (.cons asked (.cons trivial (.cons revoked .nil)))))

theorem not_sound : ¬ ∀ (now : ℤ) (actions : List Action), Sound (actions.foldl State.step { now := now }) ∧
    Throughout State.step { now := now } Lawful actions := by
  intro sound
  have lawful : Lawful (State.step { now := 1 } (.bootstrap "root")) (.revokeRole "root" "eve") :=
    (sound 1 [.bootstrap "root", .revokeRole "root" "eve"]).2 [.bootstrap "root"] _ [] rfl
  have gone : (State.step (State.step { now := 1 } (.bootstrap "root")) (.revokeRole "root" "eve")).getAssignment "root" = none := by
    decide
  have enough := lawful.removed "eve" rfl "root" ⟨.admin, "system", 1, none, none⟩ (by decide) fun a' found => by
    rw [gone] at found
    cases found
  exact absurd enough (by decide)

end Runs

end SubTrackr.Roles
