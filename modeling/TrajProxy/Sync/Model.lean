import TrajProxy.Sync.Registry

/-! `ModelSynchronizer` of one worker: the shared table, the notifications it
sends, the listener that handles them one at a time, and the periodic full
sync. Every read of the table and the callback that follows it are two steps,
with any other step in between. A callback itself runs in one step, as in
`Manager.step`. -/

namespace TrajProxy.Sync
open Manager Transition

inductive Notification
  | register (key : Key)
  | unregister (key : Key)
  deriving DecidableEq

def Notification.key : Notification → Key
  | .register key => key
  | .unregister key => key

/-- Where `_handle_notification` is suspended. Only a `register` suspends:
before and after `get_by_key`, and, when the row is missing, before and after
the `get_all` of the fallback. -/
inductive Listener
  | idle
  | reading (key : Key)
  | read (key : Key) (row : Option ConfigRef)
  | fallback (key : Key)
  | syncing (key : Key) (dbModels : List ConfigRef)

structure System where
  db : Registry
  manager : State
  channel : List Notification
  listener : Listener
  periodic : Option (List ConfigRef)

inductive Action
  | dbRegister (config : ModelConfig)
  | dbUnregister (key : Key)
  | deliver
  | readRow (address : Nat)
  | applyRow
  | readFallback (address : Nat)
  | applyFallback
  | readPeriodic (address : Nat)
  | applyPeriodic

/-- `get_all`: fresh objects, from `address` on. -/
def Registry.getAll (db : Registry) (address : Nat) : List ConfigRef :=
  db.rows.mapIdx fun i config => ⟨address + i, config⟩

def step (s : System) : Action → Option System
  | .dbRegister config => some { s with
      db := s.db.upsert config
      channel := s.channel ++ [.register config.key] }
  | .dbUnregister key =>
    match s.db.get key with
    | some _ => some { s with
        db := s.db.delete key
        channel := s.channel ++ [.unregister key] }
    -- rowcount is 0 and no notification is sent
    | none => some s
  | .deliver =>
    match s.listener, s.channel with
    | .idle, .register key :: rest => some { s with channel := rest, listener := .reading key }
    | .idle, .unregister key :: rest => some { s with
        channel := rest
        manager := s.manager.unregisterByKey key }
    | _, _ => none
  | .readRow address =>
    match s.listener with
    | .reading key => some { s with
        listener := .read key ((s.db.get key).map fun config => ⟨address, config⟩) }
    | _ => none
  | .applyRow =>
    match s.listener with
    | .read _ (some config) => some { s with
        manager := s.manager.registerFromConfig config
        listener := .idle }
    | .read key none => some { s with listener := .fallback key }
    | _ => none
  | .readFallback address =>
    match s.listener with
    | .fallback key => some { s with listener := .syncing key (s.db.getAll address) }
    | _ => none
  | .applyFallback =>
    match s.listener with
    | .syncing _ dbModels => some { s with
        manager := s.manager.fullSync dbModels
        listener := .idle }
    | _ => none
  | .readPeriodic address =>
    match s.periodic with
    | none => some { s with periodic := some (s.db.getAll address) }
    | some _ => none
  | .applyPeriodic =>
    match s.periodic with
    | some dbModels => some { s with
        manager := s.manager.fullSync dbModels
        periodic := none }
    | none => none

/-- `start()` on a table: the initial full sync has run, the listener is on. -/
def started (db : Registry) (cacheMaxSize idleTimeout : Nat) : System where
  db := db
  manager := (initial cacheMaxSize idleTimeout).fullSync (db.getAll 0)
  channel := []
  listener := .idle
  periodic := none

def machine : Machine System Action where
  step := step

end TrajProxy.Sync
