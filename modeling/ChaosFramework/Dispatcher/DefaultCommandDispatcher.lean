import Mathlib.Data.Int.Notation
import Mathlib.Data.List.Basic
import ChaosFramework.Transition

/-!
# The command dispatcher

`DefaultCommandDispatcher` keeps two maps by the name of a domain: the containers of the actions
(`action_domain_executor_map`) and the schedulers (`das_map`). A scheduler has a queue of calls, a
thread that takes them from it, and a container of its own, meant to be the one of its domain.
Registrations and deregistrations change both maps, in loops over the descriptors of an object.

Containers and schedulers are kept in stores, and the maps hold their numbers. A descriptor is known
by the object that declares it and its place there. The thread of a scheduler takes a call and looks
its action up, and then it locks the action, runs it and submits the answer; other threads can come
in between.
-/

namespace ChaosFramework.Dispatcher

open List Function

/-- An object with the domains and names of the actions that it declares. -/
structure DeclareAction where
  uid : ℕ
  actions : List (String × String)
  deriving DecidableEq, Repr

structure ActionDescriptor where
  owner : DeclareAction
  index : ℕ
  domain : String
  name : String
  deriving DecidableEq, Repr

def DeclareAction.getActionDescriptors (d : DeclareAction) : List ActionDescriptor :=
  d.actions.mapIdx fun index action => ⟨d, index, action.1, action.2⟩

variable {d : DeclareAction}

theorem DeclareAction.mem_actions_iff {dom name : String} :
    (dom, name) ∈ d.actions ↔
      ∃ desc ∈ d.getActionDescriptors, desc.domain = dom ∧ desc.name = name := by
  constructor
  · intro declared
    obtain ⟨i, hi, same⟩ := mem_iff_getElem.mp declared
    exact ⟨_, mem_mapIdx.mpr ⟨i, hi, rfl⟩, congrArg Prod.fst same, congrArg Prod.snd same⟩
  · rintro ⟨desc, hd, rfl, rfl⟩
    obtain ⟨i, hi, rfl⟩ := mem_mapIdx.mp hd
    exact getElem_mem hi

theorem DeclareAction.owner_of_mem {desc : ActionDescriptor}
    (hd : desc ∈ d.getActionDescriptors) : desc.owner = d := by
  obtain ⟨i, hi, rfl⟩ := mem_mapIdx.mp hd
  rfl

/-! ### Containers -/

structure DomainActions where
  domainName : String
  /-- A map by the names of the descriptors. -/
  actionDescriptionsMap : List ActionDescriptor
  deriving DecidableEq, Repr

namespace DomainActions

def getActionDescriptornFormActionName (c : DomainActions) (name : String) :
    Option ActionDescriptor :=
  c.actionDescriptionsMap.find? fun desc => desc.name = name

def hasActionName (c : DomainActions) (name : String) : Bool :=
  (c.getActionDescriptornFormActionName name).isSome

def registeredActions (c : DomainActions) : ℕ := c.actionDescriptionsMap.length

/-- The insertion into the map does nothing if the name is there. -/
def addActionDescriptor (c : DomainActions) (desc : ActionDescriptor) : DomainActions :=
  if desc.domain ≠ c.domainName then c
  else if c.hasActionName desc.name then c
  else { c with actionDescriptionsMap := c.actionDescriptionsMap ++ [desc] }

/-- The removal is by the name, whatever descriptor is there. -/
def removeActionDescriptor (c : DomainActions) (desc : ActionDescriptor) : DomainActions :=
  if desc.domain ≠ c.domainName then c
  else { c with
    actionDescriptionsMap := c.actionDescriptionsMap.filter fun other => other.name ≠ desc.name }

end DomainActions

/-! ### Calls -/

/-- The keys of a call that are looked at. -/
structure RpcMessage (Doc : Type) where
  /-- `CS_CMDM_ACTION_DOMAIN` -/
  domain : Option String
  /-- `CS_CMDM_ACTION_NAME` -/
  name : Option String
  /-- `CS_CMDM_ACTION_MESSAGE` -/
  message : Option Doc
  /-- `CS_CMDM_ANSWER_ID` -/
  answerId : Option ℤ
  /-- `CS_CMDM_ANSWER_HOST_IP` -/
  answerHost : Option String
  /-- `CS_CMDM_ANSWER_DOMAIN` -/
  answerDomain : Option String
  /-- `CS_CMDM_ANSWER_ACTION` -/
  answerAction : Option String
  deriving DecidableEq, Repr

/-- A call, with its sub command (`CS_CMDM_SUB_CMD`), the sub command of that, and so on. -/
structure Call (Doc : Type) where
  pack : RpcMessage Doc
  subCommands : List (RpcMessage Doc)
  deriving DecidableEq, Repr

variable {Doc : Type}

def Call.subCommand (c : Call Doc) : Option (Call Doc) :=
  match c.subCommands with
  | [] => none
  | sub :: rest => some ⟨sub, rest⟩

/-- Where an answer goes. -/
structure Destination where
  id : ℤ
  host : String
  domain : String
  action : String
  deriving DecidableEq, Repr

/-- An answer is needed if all the keys are there. -/
def RpcMessage.answerTo (m : RpcMessage Doc) : Option Destination :=
  match m.answerId, m.answerHost, m.answerDomain, m.answerAction with
  | some id, some host, some domain, some action => some ⟨id, host, domain, action⟩
  | _, _, _, _ => none

structure Response (Doc : Type) where
  host : String
  /-- Domain and action are added if neither is empty. -/
  target : Option (String × String)
  id : ℤ
  errorCode : ℤ
  /-- Domain and message of an exception. -/
  error : Option (String × String)
  result : Option Doc
  deriving DecidableEq, Repr

/-- What an action does. -/
inductive Outcome (Doc : Type)
  | returned (result : Option Doc)
  | cException (code : { c : ℤ // c ≠ 0 }) (message domain : String)
  | otherException
  deriving DecidableEq, Repr

def Outcome.returns : Outcome Doc → Bool
  | .returned _ => true
  | _ => false

/-- The answer to a call after its action has been run. -/
def Destination.answer (d : Destination) (outcome : Outcome Doc) : Response Doc :=
  { host := d.host
    target := if d.domain ≠ "" ∧ d.action ≠ "" then some (d.domain, d.action) else none
    id := d.id
    errorCode :=
      match outcome with
      | .returned _ => 0
      | .cException code _ _ => code
      | .otherException => 1
    error :=
      match outcome with
      | .cException _ message domain => some (domain, message)
      | _ => none
    result :=
      match outcome with
      | .returned result => result
      | _ => none }

/-! ### The dispatcher -/

structure DomainActionsScheduler (Doc : Type) where
  domainActionsContainer : ℕ
  armed : Bool
  bufferQueue : List (Call Doc)
  /-- What the thread has taken from the queue, with the descriptor that it has found. -/
  taken : Option (Call Doc × ActionDescriptor)

structure DefaultCommandDispatcher (Doc : Type) where
  containers : ℕ → DomainActions
  nextContainer : ℕ
  schedulers : ℕ → DomainActionsScheduler Doc
  nextScheduler : ℕ
  actionDomainExecutorMap : String → Option ℕ
  dasMap : String → Option ℕ
  enabled : ActionDescriptor → Bool

namespace DefaultCommandDispatcher

def init : DefaultCommandDispatcher Doc where
  containers _ := ⟨"", []⟩
  nextContainer := 0
  schedulers _ := ⟨0, false, [], none⟩
  nextScheduler := 0
  actionDomainExecutorMap _ := none
  dasMap _ := none
  enabled _ := true

/-- A new container is put into the map. -/
def allocateDomainActions (s : DefaultCommandDispatcher Doc) (domain : String) :
    DefaultCommandDispatcher Doc :=
  { s with
    containers := update s.containers s.nextContainer ⟨domain, []⟩
    nextContainer := s.nextContainer + 1
    actionDomainExecutorMap :=
      update s.actionDomainExecutorMap domain (some s.nextContainer) }

/-- The container of a domain is made if there is none. -/
def getDomainActionsFromName (s : DefaultCommandDispatcher Doc) (domain : String) :
    DefaultCommandDispatcher Doc × ℕ :=
  match s.actionDomainExecutorMap domain with
  | some c => (s, c)
  | none => (s.allocateDomainActions domain, s.nextContainer)

/-- The first loop of `registerAction`. -/
def registerDescriptor (s : DefaultCommandDispatcher Doc) (desc : ActionDescriptor) :
    DefaultCommandDispatcher Doc :=
  let (t, c) := s.getDomainActionsFromName desc.domain
  { t with
    containers := update t.containers c ((t.containers c).addActionDescriptor desc)
    enabled := update t.enabled desc true }

/-- The second loop of `registerAction`. -/
def addScheduler (s : DefaultCommandDispatcher Doc) (desc : ActionDescriptor) :
    DefaultCommandDispatcher Doc :=
  match s.dasMap desc.domain with
  | some _ => s
  | none =>
      let (t, c) := s.getDomainActionsFromName desc.domain
      { t with
        schedulers := update t.schedulers t.nextScheduler ⟨c, true, [], none⟩
        nextScheduler := t.nextScheduler + 1
        dasMap := update t.dasMap desc.domain (some t.nextScheduler) }

def registerAction (s : DefaultCommandDispatcher Doc) (d : DeclareAction) :
    DefaultCommandDispatcher Doc :=
  d.getActionDescriptors.foldl addScheduler (d.getActionDescriptors.foldl registerDescriptor s)

/-- The first loop of `deregisterAction`: a container that is empty is erased from the map. -/
def deregisterDescriptor (s : DefaultCommandDispatcher Doc) (desc : ActionDescriptor) :
    DefaultCommandDispatcher Doc :=
  let (t, c) := s.getDomainActionsFromName desc.domain
  let container := (t.containers c).removeActionDescriptor desc
  { t with
    containers := update t.containers c container
    enabled := update t.enabled desc false
    actionDomainExecutorMap :=
      if container.registeredActions = 0 then
        update t.actionDomainExecutorMap container.domainName none
      else t.actionDomainExecutorMap }

/-- `DomainActionsScheduler::deinit`. It waits for the thread, which ends with what it has
taken. -/
def deinitScheduler (s : DefaultCommandDispatcher Doc) (k : ℕ) : DefaultCommandDispatcher Doc :=
  { s with
    schedulers := update s.schedulers k
      { s.schedulers k with bufferQueue := [], armed := false } }

/-- The second loop of `deregisterAction`: the scheduler goes if the container has gone. -/
def removeScheduler (s : DefaultCommandDispatcher Doc) (desc : ActionDescriptor) :
    DefaultCommandDispatcher Doc :=
  match s.dasMap desc.domain, s.actionDomainExecutorMap desc.domain with
  | some k, none =>
      { s with dasMap := update s.dasMap desc.domain none }.deinitScheduler k
  | _, _ => s

def deregisterAction (s : DefaultCommandDispatcher Doc) (d : DeclareAction) :
    DefaultCommandDispatcher Doc :=
  d.getActionDescriptors.foldl removeScheduler
    (d.getActionDescriptors.foldl deregisterDescriptor s)

/-- The action of a call, as the scheduler sees it. -/
def lookup (s : DefaultCommandDispatcher Doc) (k : ℕ) (c : Call Doc) : Option ActionDescriptor :=
  (s.containers (s.schedulers k).domainActionsContainer).getActionDescriptornFormActionName
    (c.pack.name.getD "")

/-- `DomainActionsScheduler::push` and that of the queue below it. The result is the error
code of the exception, where zero is none. -/
def push (s : DefaultCommandDispatcher Doc) (k : ℕ) (c : Call Doc) :
    DefaultCommandDispatcher Doc × ℤ :=
  if (s.schedulers k).armed = false then (s, -1)
  else if (s.lookup k c).isNone then (s, -2)
  else if 1000 < (s.schedulers k).bufferQueue.length then (s, -1006)
  else
    ({ s with
        schedulers := update s.schedulers k
          { s.schedulers k with bufferQueue := (s.schedulers k).bufferQueue ++ [c] } }, 0)

/-- The result is the error code of the answer. -/
def dispatchCommand (s : DefaultCommandDispatcher Doc) (c : Call Doc) :
    DefaultCommandDispatcher Doc × ℤ :=
  match c.pack.domain with
  | none => (s, -1003)
  | some domain =>
      match c.pack.name with
      | none => (s, -1004)
      | some _ =>
          match s.dasMap domain with
          | none => (s, -1005)
          | some k => s.push k c

/-! ### The thread of a scheduler -/

/-- A call that has been worked on: the responses that were submitted, and whether its action
was executed and returned. -/
structure Handled (Doc : Type) where
  call : Call Doc
  responses : List (Response Doc)
  returned : Bool
  deriving DecidableEq, Repr

def setTaken (s : DefaultCommandDispatcher Doc) (k : ℕ)
    (taken : Option (Call Doc × ActionDescriptor)) : DefaultCommandDispatcher Doc :=
  { s with schedulers := update s.schedulers k { s.schedulers k with taken } }

/-- The first part of `processBufferElement`. It is over for an action that is not there. -/
def takeCall (s : DefaultCommandDispatcher Doc) (k : ℕ) :
    Option (DefaultCommandDispatcher Doc × Option (Handled Doc)) :=
  match (s.schedulers k).taken, (s.schedulers k).bufferQueue with
  | none, c :: rest =>
      let popped : DefaultCommandDispatcher Doc :=
        { s with
          schedulers := update s.schedulers k { s.schedulers k with bufferQueue := rest } }
      match s.lookup k c with
      | none => some (popped, some ⟨c, [], false⟩)
      | some desc => some (popped.setTaken k (some (c, desc)), none)
  | _, _ => none

/-- A sub command is submitted when the action has returned. Its result is not looked at. -/
def submitSubCommand (s : DefaultCommandDispatcher Doc) (c : Call Doc) :
    Outcome Doc → DefaultCommandDispatcher Doc
  | .returned _ =>
      match c.subCommand with
      | some sub => (s.dispatchCommand sub).1
      | none => s
  | _ => s

/-- The second part of `processBufferElement`. It is over for an action that cannot be
fired. -/
def runCall (s : DefaultCommandDispatcher Doc) (k : ℕ) (outcome : Outcome Doc) :
    Option (DefaultCommandDispatcher Doc × Handled Doc) :=
  match (s.schedulers k).taken with
  | none => none
  | some (c, desc) =>
      let done := s.setTaken k none
      if s.enabled desc then
        some (done.submitSubCommand c outcome,
          ⟨c, (c.pack.answerTo.map fun d => d.answer outcome).toList, outcome.returns⟩)
      else some (done, ⟨c, [], false⟩)

end DefaultCommandDispatcher

end ChaosFramework.Dispatcher
