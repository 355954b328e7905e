import ResponseGateway.Adapters.Managed
import ResponseGateway.Usage.Recorded

/-!
`usage` and `usage::provider`: an upstream attempt tells the recorder what it counted. An
attempt holds a place in the channel for its end from the moment it exists, and tells its
end when it is dropped. A call that is cancelled while it waits leaves what it would leave
had the wait failed. The number of the dropped events is left out.
-/

namespace ResponseGateway.Usage
open Adapters (Accounting)

section Sending

inductive Mode where
  | off
  | bestEffort
  | durableLocal
  deriving DecidableEq, Repr

structure UsageSink where
  mode : Mode
  producer : String
  supportsV2 : Bool

/-- What a call finds: the clock, a new name, and what becomes of an event that it sends. -/
structure Chance where
  now : UInt64
  eventId : String
  /-- The channel takes the event, in time. -/
  taken : Bool
  /-- The recorder acknowledges it, in time. -/
  acknowledged : Bool

/-- The part of an attempt that sends. -/
structure Sender where
  sink : UsageSink
  /-- The place in the channel for the end. -/
  terminal : Bool
  finished : Bool

/-- What a call leaves: the attempt, what reached the channel, and whether it went well. -/
structure After (α : Type) where
  attempt : α
  sent : List RecordedEvent
  ok : Bool

namespace Sender

variable (s : Sender) (c : Chance) (event : RecordedEvent)

def acknowledges : Bool := s.sink.mode ≠ .durableLocal || c.acknowledged

def send (terminal : Bool) : After Sender :=
  if terminal then
    if s.terminal then ⟨{ s with terminal := false }, [event], s.acknowledges c⟩
    else ⟨s, [], false⟩
  else if c.taken then ⟨s, [event], s.acknowledges c⟩
  else ⟨s, [], s.sink.mode ≠ .durableLocal⟩

/-- The end is told to no one who answers. -/
def abandon : List RecordedEvent := if s.terminal then [event] else []

end Sender

/-- The sender of a new attempt, if the channel keeps a place for its end. -/
def UsageSink.reserve (sink : UsageSink) (reserved : Bool) : Except Unit (Option Sender) :=
  if reserved then .ok (some ⟨sink, true, false⟩)
  else if sink.mode = .durableLocal then .error ()
  else .ok none

def CanonicalUsage.observed (u : CanonicalUsage) : Bool := u.counters.values.any (·.value.isSome)

/-- How final the counters of an attempt are that is under way. -/
def CanonicalUsage.progress (u : CanonicalUsage) : Finality :=
  if u.observed then .partly else .unobserved

def Outcome.delivered (o : Outcome) : Bool := o = .completed || o = .incomplete

/-- How final the counters of a finished attempt are. -/
def CanonicalUsage.closing (u : CanonicalUsage) (incomplete : Bool) (upstream : Outcome) :
    Finality :=
  if !u.observed then .unobserved
  else if !incomplete && upstream.delivered && u.violations.isEmpty then .final
  else .partly

/-- The outcome of an attempt that nobody finished. -/
def Outcome.dropped (gateway : Outcome) : Outcome :=
  if gateway = .inProgress then .cancelled else gateway

end Sending

section Builtin

structure Attempt extends Sender where
  event : UsageEventV1
  accumulator : Accumulator

namespace Attempt

-- A release build does not check the addition: the revision comes around.
def next (kind : EventKind) (c : Chance) (a : Attempt) : Attempt :=
  { a with event := { a.event with revision := a.event.revision + 1, eventId := c.eventId, kind } }

def grade (finality : Finality) (a : Attempt) : Attempt :=
  { a with event := { a.event with finality } }

/-- The event takes the time and the counters. -/
def stamp (c : Chance) (a : Attempt) : Attempt :=
  { a with event := { a.event with
      observedAtMs := max c.now a.event.startedAtMs
      usage := a.accumulator.usage
      observationIncomplete := a.event.observationIncomplete || a.accumulator.incomplete } }

def deliver (terminal : Bool) (c : Chance) (a : Attempt) : After Attempt :=
  let a := a.stamp c
  let after := a.toSender.send c (.v1 a.event) terminal
  ⟨{ a with toSender := after.attempt }, after.sent, after.ok⟩

/-- The counters changed. -/
def update (c : Chance) (a : Attempt) : After Attempt :=
  ((a.next .usageUpdated c).grade a.accumulator.usage.progress).deliver false c

def start (sink : Option UsageSink) (event : UsageEventV1) (reserved : Bool) (c : Chance) :
    Except Unit (Option (After Attempt)) :=
  match sink with
  | none => .ok none
  | some sink =>
      if sink.mode = .off then .ok none
      else do
        let sender ← sink.reserve reserved
        return sender.map fun sender =>
          let event := { event with producerId := sink.producer }
          Attempt.deliver false c ⟨sender, event, .new event.profile⟩

def observe (value : Json) (c : Chance) (a : Attempt) : After Attempt :=
  if a.finished then ⟨a, [], true⟩
  else
    let (changed, accumulator) := a.accumulator.observe value
    let a := { a with accumulator }
    if changed then a.update c else ⟨a, [], true⟩

/-- The identities and the outcome that an adapter read. -/
def identify (snapshot : Accounting) (a : Attempt) : Attempt :=
  { a with event := { a.event with
      reportedModel := snapshot.model.or a.event.reportedModel
      providerResponseId := snapshot.responseId.or a.event.providerResponseId
      upstream := snapshot.upstream } }

def observeManaged (snapshot : Accounting) (c : Chance) (a : Attempt) : After Attempt :=
  let a := a.identify snapshot
  if a.finished then ⟨a, [], true⟩
  else
    let (changed, accumulator) := a.accumulator.observeCounters snapshot.usage.reported
    let a := { a with accumulator }
    if changed then a.update c else ⟨a, [], true⟩

def incomplete (a : Attempt) : Attempt :=
  { a with
    accumulator := { a.accumulator with incomplete := true }
    event := { a.event with observationIncomplete := true } }

/-- The end of the attempt, before its counters are graded. -/
def close (gateway : Outcome) (c : Chance) (a : Attempt) : Attempt :=
  let a := { a with finished := true }.next .attemptFinished c
  { a with event := { a.event with gateway } }

def finish (gateway : Outcome) (c : Chance) (a : Attempt) : After Attempt :=
  if a.finished then ⟨a, [], true⟩
  else ((a.close gateway c).grade (a.accumulator.usage.closing a.accumulator.incomplete
    a.event.upstream)).deliver true c

/-- The part of a payload that describes the response. -/
def sourceOf (value : Json) : Json :=
  ((value.field "response").or (value.field "message")).getD value

def payloadMetadata (value : Json) (a : Attempt) : Attempt :=
  let label (key : String) : Option String := ((sourceOf value).fieldStr key).filter safeLabel
  { a with event := { a.event with
      reportedModel := (label "model").or a.event.reportedModel
      providerResponseId := (label "id").or a.event.providerResponseId } }

/-- The outcome that a payload of the provider tells. -/
def upstreamOf (value : Json) (upstream : Outcome) : Outcome :=
  match (value.fieldStr "type").getD "" with
  | "response.completed" | "message_stop" => .completed
  | "response.incomplete" => .incomplete
  | "response.failed" | "error" => .failed
  | _ => upstream

def observeUsage (source : Json) (c : Chance) (a : Attempt) : After Attempt :=
  match (source.field "usage").filter (!·.isNull) with
  | some usage => a.observe usage c
  | none => ⟨a, [], true⟩

/-- The counters of a payload, then its outcome. -/
def observePayload (value : Json) (c : Chance) (a : Attempt) : After Attempt :=
  let after := (a.payloadMetadata value).observeUsage (sourceOf value) c
  if after.ok then
    { after with attempt := { after.attempt with event := { after.attempt.event with
        upstream := upstreamOf value after.attempt.event.upstream } } }
  else after

/-- The fields that the proxy writes itself. -/
def amend (upstream gateway : Outcome) (providerRequestId : Option String) (a : Attempt) :
    Attempt :=
  { a with event := { a.event with upstream, gateway, providerRequestId } }

def drop (c : Chance) (a : Attempt) : List RecordedEvent :=
  if a.finished then []
  else
    let a := ((a.next .attemptFinished c).stamp c).grade a.accumulator.usage.progress
    a.toSender.abandon (.v1 { a.event with gateway := a.event.gateway.dropped })

inductive Call where
  | observe (value : Json)
  | observeManaged (snapshot : Accounting)
  | observePayload (value : Json)
  | incomplete
  | amend (upstream gateway : Outcome) (providerRequestId : Option String)
  | finish (gateway : Outcome)

def call (a : Attempt) (c : Chance) : Call → After Attempt
  | .observe value => a.observe value c
  | .observeManaged snapshot => a.observeManaged snapshot c
  | .observePayload value => a.observePayload value c
  | .incomplete => ⟨a.incomplete, [], true⟩
  | .amend upstream gateway providerRequestId =>
      ⟨a.amend upstream gateway providerRequestId, [], true⟩
  | .finish gateway => a.finish gateway c

end Attempt

end Builtin

section Provider

structure ProviderIdentity where
  protocol : String
  providerProtocol : String
  id : String
  version : String
  packageSha256 : String
  executableSha256 : String
  deriving DecidableEq

structure ProviderObservation where
  identity : ProviderIdentity
  usage : CanonicalUsage

def interpretation (identity : ProviderIdentity) : Interpretation where
  kind := "trusted_provider_plugin"
  protocol := identity.protocol
  providerProtocol := identity.providerProtocol
  packageId := identity.id
  packageVersion := identity.version
  packageSha256 := identity.packageSha256
  executableSha256 := identity.executableSha256

structure ProviderAttempt extends Sender where
  event : UsageEventV2

namespace ProviderAttempt

def next (kind : EventKind) (c : Chance) (a : ProviderAttempt) : ProviderAttempt :=
  { a with event := { a.event with revision := a.event.revision + 1, eventId := c.eventId, kind } }

def grade (finality : Finality) (a : ProviderAttempt) : ProviderAttempt :=
  { a with event := { a.event with finality } }

def stamp (c : Chance) (a : ProviderAttempt) : ProviderAttempt :=
  { a with event := { a.event with observedAtMs := max c.now a.event.startedAtMs } }

def deliver (terminal : Bool) (c : Chance) (a : ProviderAttempt) : After ProviderAttempt :=
  let a := a.stamp c
  let after := a.toSender.send c (.v2 a.event) terminal
  ⟨{ a with toSender := after.attempt }, after.sent, after.ok⟩

def start (sink : Option UsageSink) (event : UsageEventV2) (reserved : Bool) (c : Chance) :
    Except Unit (Option (After ProviderAttempt)) :=
  match sink with
  | none => .ok none
  | some sink =>
      if sink.mode = .off then .ok none
      else if !sink.supportsV2 then .error ()
      else do
        let sender ← sink.reserve reserved
        return sender.map fun sender =>
          ProviderAttempt.deliver false c ⟨sender, { event with producerId := sink.producer }⟩

/-- The counters of the plugin replace those of the event. -/
def replace (usage : CanonicalUsage) (a : ProviderAttempt) : ProviderAttempt :=
  grade usage.progress { a with event := { a.event with
      usage
      observationIncomplete := a.event.observationIncomplete || !usage.violations.isEmpty ||
        usage.hasInvalid } }

def observe (observation : ProviderObservation) (c : Chance) (a : ProviderAttempt) :
    After ProviderAttempt :=
  if interpretation observation.identity ≠ a.event.interpretation ||
      !providerUsageValid observation.usage then ⟨a, [], false⟩
  else if a.finished then ⟨a, [], true⟩
  else if a.event.usage ≠ observation.usage then
    ((a.replace observation.usage).next .usageUpdated c).deliver false c
  else ⟨a, [], true⟩

/-- The end of the attempt, before its counters are graded. -/
def close (gateway : Outcome) (c : Chance) (a : ProviderAttempt) : ProviderAttempt :=
  let a := { a with finished := true }.next .attemptFinished c
  { a with event := { a.event with gateway } }

def finish (gateway : Outcome) (c : Chance) (a : ProviderAttempt) : After ProviderAttempt :=
  if a.finished then ⟨a, [], true⟩
  else ((a.close gateway c).grade (a.event.usage.closing a.event.observationIncomplete
    a.event.upstream)).deliver true c

/-- The fields that the proxy writes itself. -/
def amend (upstream gateway : Outcome) (providerRequestId : Option String)
    (a : ProviderAttempt) : ProviderAttempt :=
  { a with event := { a.event with upstream, gateway, providerRequestId } }

def drop (c : Chance) (a : ProviderAttempt) : List RecordedEvent :=
  if a.finished then []
  else
    let a := ((a.next .attemptFinished c).stamp c).grade a.event.usage.progress
    a.toSender.abandon (.v2 { a.event with
      gateway := a.event.gateway.dropped, observationIncomplete := true })

inductive Call where
  | observe (observation : ProviderObservation)
  | amend (upstream gateway : Outcome) (providerRequestId : Option String)
  | finish (gateway : Outcome)

def call (a : ProviderAttempt) (c : Chance) : Call → After ProviderAttempt
  | .observe observation => a.observe observation c
  | .amend upstream gateway providerRequestId =>
      ⟨a.amend upstream gateway providerRequestId, [], true⟩
  | .finish gateway => a.finish gateway c

end ProviderAttempt

end Provider

section Lifetimes

variable {α κ : Type}

/-- Calls one after the other, whatever they return. -/
def calls (call : α → Chance → κ → After α) : List (κ × Chance) → α → After α
  | [], a => ⟨a, [], true⟩
  | (k, c) :: rest, a =>
      let first := call a c k
      let last := calls call rest first.attempt
      ⟨last.attempt, first.sent ++ last.sent, last.ok⟩

/-- What reaches the channel from an attempt that was constructed: one that could not be
started is dropped at once. -/
def lifetime (call : α → Chance → κ → After α) (drop : Chance → α → List RecordedEvent)
    (opened : After α) (steps : List (κ × Chance)) (closing : Chance) : List RecordedEvent :=
  if opened.ok then
    let last := calls call steps opened.attempt
    opened.sent ++ last.sent ++ drop closing last.attempt
  else opened.sent ++ drop closing opened.attempt

/-- What reaches the channel from an attempt, if one is constructed. -/
def Attempt.channel (sink : Option UsageSink) (event : UsageEventV1) (reserved : Bool)
    (c : Chance) (steps : List (Attempt.Call × Chance)) (closing : Chance) :
    Option (List RecordedEvent) :=
  match Attempt.start sink event reserved c with
  | .ok (some opened) => some (lifetime Attempt.call (fun c a => a.drop c) opened steps closing)
  | _ => none

def ProviderAttempt.channel (sink : Option UsageSink) (event : UsageEventV2) (reserved : Bool)
    (c : Chance) (steps : List (ProviderAttempt.Call × Chance)) (closing : Chance) :
    Option (List RecordedEvent) :=
  match ProviderAttempt.start sink event reserved c with
  | .ok (some opened) =>
      some (lifetime ProviderAttempt.call (fun c a => a.drop c) opened steps closing)
  | _ => none

end Lifetimes

end ResponseGateway.Usage
