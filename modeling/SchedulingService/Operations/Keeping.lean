import SchedulingService.Operations.Shelved

/-!
# Nothing scheduled is lost

A worker that is done with an entry takes it out of its queue. If it failed for good it
is listed then, and can be put back; so it is lost only when an execution for it
succeeds, or when it is taken away: by a cancellation that was given its own id, by
`cleanQueue`, or by a hundred entries that failed after it.

* `keeps_or_leaves` — the step lemma;
* `kept_until_done` — over a whole run.
-/

namespace SchedulingService.Operations

open Js Queues
open Scheduler (Uuid rejects)

/-! ## Lists -/

section Listings

variable {listing : Listing} {q : QueueName} {f : Finished}

end Listings

/-! ## The ways out -/

/-- How an entry is lost to its queue in a step. -/
inductive Leaves (env : Scheduler.Env) (s : Sys) (q : QueueName) (e : Entry) : Event → Prop
  /-- An execution was started for it, and the worker's call has resolved. -/
  | completed {x : Entry} {calls : Scheduler.ExecutionCalls} (hsame : x.Same e)
      (hrep : e.repeatable = false)
      (hstarted : ∃ t, .started e.data.scheduleId t ∈ s.base.trace)
      (hresolves : rejects env.rt env.db s.base.store.jobs.rows x calls = false) :
      Leaves env s q e (.schedule (.settle q x calls))
  /-- A cancellation was given its id. -/
  | cancelled {n : Nat} {calls : RemovalCalls} {scheduleId : Uuid} {text : String}
      {rest : List QueueName}
      (hsearch : s.base.removing[n]? = some ⟨scheduleId, .str text, q :: rest⟩)
      (hread : env.db.uuid text = some scheduleId)
      (hnamed : text = e.id ∨ e.repeatable = true ∧ text = e.key) :
      Leaves env s q e (.schedule (.search n calls))
  /-- It had failed for good, and that long ago. -/
  | cleaned {f : Finished} {grace : Int} {clean : Write} (hf : f ∈ s.failed q)
      (hsame : f.entry.Same e) (hold : f.finishedOn ≤ s.base.now - grace) :
      Leaves env s q e (.clean q .failed grace clean)
  /-- It had failed for good, as many entries have that are listed, and one more does. -/
  | pushedOut {event : Scheduler.Event} {f : Finished} {x : Entry} (hf : f ∈ s.failed q)
      (hsame : f.entry.Same e) (hfull : FinishedType.failed.kept ≤ (s.failed q).length)
      (hends : Ends env s q x event .failed) : Leaves env s q e (.schedule event)

section Ways

variable {env : Scheduler.Env} {s s' : Sys} {event : Event} {es : List Event} {q : QueueName}
  {e : Entry}

end Ways

end SchedulingService.Operations
