import AbrekMouse.Utf8
import Mathlib.Data.Int.Notation
import Mathlib.Tactic.Common

/-! # Who may talk to the daemon

The server asks the kernel for the peer of each connection and looks it up in the
password and group databases.  It means to let through root and the members of the
group `input`.

The lookup passes the gid of `input` to `getgrouplist`, which puts the gid it is given
into its answer, so the test for that gid succeeds for every user with a password
entry (`allowed_iff`).
-/
namespace AbrekMouse
open ProgLib

/-! ## The databases -/

/-- An entry of the group database. -/
structure Group where
  name : Bytes
  gid : ℕ
  members : List Bytes

/-- An entry of the user database. -/
structure Passwd where
  name : Bytes
  uid : ℕ
  gid : ℕ

/-- The two databases, in the order in which they are searched. -/
structure UserDb where
  passwd : List Passwd
  group : List Group

/-- `ucred`: what `SO_PEERCRED` reports. -/
structure Peer where
  uid : ℕ
  gid : ℕ
deriving DecidableEq

namespace UserDb
variable (db : UserDb)

/-- `getgrnam`: the first group of that name. -/
def getgrnam (name : Bytes) : Option Group := db.group.find? fun grp => grp.name = name

/-- `getpwuid`: the first user with that id. -/
def getpwuid (uid : ℕ) : Option Passwd := db.passwd.find? fun pw => pw.uid = uid

/-- The given gid, and those of the other groups that list the user. -/
def groupsOf (user : Bytes) (gid : ℕ) : List ℕ :=
  gid :: (db.group.filter fun grp => grp.gid ≠ gid && user ∈ grp.members).map Group.gid

/-- `getgrouplist` into a buffer of `room` gids: what it returns, what it writes, and
the number of groups. -/
def getgrouplist (user : Bytes) (gid room : ℕ) : ℤ × List ℕ × ℕ :=
  let groups := db.groupsOf user gid
  if room < groups.length then (-1, [], groups.length)
  else (groups.length, groups, groups.length)

/-- Called twice, the second time with room for all, it gives the groups. -/
theorem getgrouplist_twice (user : Bytes) (gid : ℕ) :
    db.getgrouplist user gid (db.getgrouplist user gid 0).2.2 =
      (((db.groupsOf user gid).length : ℤ), db.groupsOf user gid,
        (db.groupsOf user gid).length) := by
  have hcount : ∀ room, (db.getgrouplist user gid room).2.2 = (db.groupsOf user gid).length := by
    intro room
    unfold getgrouplist
    dsimp only
    split_ifs <;> rfl
  rw [hcount]
  exact if_neg (Nat.lt_irrefl _)

/-! ## The check -/

/-- The group whose members may speak to the daemon. -/
def inputGroup : Bytes := bytes "input"

/-- The check of the credentials in the accept loop. -/
def allowed (cred : Peer) : Bool :=
  if cred.uid = 0 then true
  else
    match db.getgrnam inputGroup with
    | none => false
    | some grp =>
        if cred.gid = grp.gid then true
        else
          match db.getpwuid cred.uid with
          | none => false
          | some pw =>
              let ngroups := (db.getgrouplist pw.name grp.gid 0).2.2
              if ngroups > 0 then
                let answer := db.getgrouplist pw.name grp.gid ngroups
                if answer.1 ≥ 0 then answer.2.1.any fun gid => gid = grp.gid else false
              else false

/-- Root, a process of the group `input`, and the members of `input`. -/
def Authorised (cred : Peer) : Prop :=
  cred.uid = 0 ∨ ∃ grp, db.getgrnam inputGroup = some grp ∧
    (cred.gid = grp.gid ∨ ∃ pw, db.getpwuid cred.uid = some pw ∧
      (pw.gid = grp.gid ∨ ∃ g ∈ db.group, g.gid = grp.gid ∧ pw.name ∈ g.members))

/-- **The check lets every user with a password entry through**, where there is a group
`input` at all. -/
theorem allowed_iff (cred : Peer) :
    db.allowed cred = true ↔ cred.uid = 0 ∨ ∃ grp, db.getgrnam inputGroup = some grp ∧
      (cred.gid = grp.gid ∨ ∃ pw, db.getpwuid cred.uid = some pw) := by
  unfold allowed
  by_cases hroot : cred.uid = 0
  · simp [hroot]
  · cases hgrp : db.getgrnam inputGroup with
    | none => simp [hroot]
    | some grp =>
        by_cases hgid : cred.gid = grp.gid
        · simp [hroot, hgid]
        · cases hpw : db.getpwuid cred.uid with
          | none => simp [hroot, hgid]
          | some pw =>
              have hcount : (db.getgrouplist pw.name grp.gid 0).2.2 > 0 := by
                simp [getgrouplist, groupsOf]
              -- the gid that was passed comes first in the answer
              have hfirst : grp.gid ∈ db.groupsOf pw.name grp.gid := List.mem_cons_self
              have htwice := getgrouplist_twice db pw.name grp.gid
              simp [hroot, hgid, hcount, htwice, hfirst]

/-! ## The accept loop -/

/-- How one round of the loop starts. -/
inductive Round
  | stopped
  | noSocket
  | timeout
  | hangup
  | acceptFailed
  | connection (cred : Peer)

/-- A connection that was accepted, and whether it was handed to
`handle_ipc_client`; if not, it was closed unread. -/
structure Served where
  peer : Peer
  handled : Bool
deriving DecidableEq

/-- `ipc_serve_loop`: which of the peers were served, round by round. -/
def ipcServeLoop : List Round → List Served
  | [] => []
  | .stopped :: _ | .noSocket :: _ | .hangup :: _ => []
  | .timeout :: rounds | .acceptFailed :: rounds => ipcServeLoop rounds
  | .connection cred :: rounds => ⟨cred, db.allowed cred⟩ :: ipcServeLoop rounds

theorem handled_of_served {rounds : List Round} {s : Served} (h : s ∈ db.ipcServeLoop rounds) :
    s.handled = db.allowed s.peer := by
  induction rounds with
  | nil => cases h
  | cons round rounds ih =>
      cases round with
      | connection cred =>
          rcases List.mem_cons.mp h with rfl | hrest
          · rfl
          · exact ih hrest
      | timeout => exact ih h
      | acceptFailed => exact ih h
      | stopped => cases h
      | noSocket => cases h
      | hangup => cases h

/-- **When the access control holds.**  Every connection that is handled comes from an
authorised peer, in a run of the loop, exactly when for each peer that was accepted
there is no group `input`, or no password entry for its user, or it is authorised. -/
theorem access_control_iff (rounds : List Round) :
    (∀ s ∈ db.ipcServeLoop rounds, s.handled = true → db.Authorised s.peer) ↔
      ∀ s ∈ db.ipcServeLoop rounds, db.getgrnam inputGroup = none ∨
        db.getpwuid s.peer.uid = none ∨ db.Authorised s.peer := by
  refine forall₂_congr fun s hs => ?_
  rw [handled_of_served db hs, allowed_iff]
  constructor
  · intro hsafe
    cases hgrp : db.getgrnam inputGroup with
    | none => exact .inl rfl
    | some grp =>
        cases hpw : db.getpwuid s.peer.uid with
        | none => exact .inr (.inl rfl)
        | some pw => exact .inr (.inr (hsafe (.inr ⟨grp, hgrp, .inr ⟨pw, hpw⟩⟩)))
  · rintro (hnone | hnone | hauth) hallowed
    · rcases hallowed with hroot | ⟨grp, hgrp, -⟩
      · exact .inl hroot
      · rw [hnone] at hgrp
        cases hgrp
    · rcases hallowed with hroot | ⟨grp, hgrp, hgid | ⟨pw, hpw⟩⟩
      · exact .inl hroot
      · exact .inr ⟨grp, hgrp, .inl hgid⟩
      · rw [hnone] at hpw
        cases hpw
    · exact hauth

/-- A user outside the group `input`, which nobody is in. -/
def outsider : UserDb where
  passwd := [{ name := bytes "alice", uid := 1000, gid := 1000 }]
  group := [{ name := bytes "input", gid := 104, members := [] },
    { name := bytes "alice", gid := 1000, members := [] }]

/-- The connection of that user is handled. -/
theorem outsider_handled :
    ¬∀ s ∈ outsider.ipcServeLoop [.connection ⟨1000, 1000⟩], s.handled = true →
      outsider.Authorised s.peer := by
  intro hsafe
  have hauth : outsider.Authorised ⟨1000, 1000⟩ :=
    hsafe ⟨⟨1000, 1000⟩, true⟩ (by decide) rfl
  rcases hauth with hroot | ⟨grp, hgrp, hin⟩
  · cases hroot
  · have hinput : outsider.getgrnam inputGroup =
        some { name := bytes "input", gid := 104, members := [] } := by rfl
    obtain rfl := Option.some.inj (hgrp.symm.trans hinput)
    rcases hin with hgid | ⟨pw, hpw, hmember⟩
    · cases hgid
    · have halice : outsider.getpwuid 1000 =
          some { name := bytes "alice", uid := 1000, gid := 1000 } := by rfl
      obtain rfl := Option.some.inj (hpw.symm.trans halice)
      simp [outsider] at hmember

end UserDb
end AbrekMouse
