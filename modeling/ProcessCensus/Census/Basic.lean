import ProcessCensus.Census.Family
import ProcessCensus.Census.Query
import ProcessCensus.Chunks
import ProcessCensus.Settings

/-!
The census: single look-ups and listings of the processes of one system. A listing is shared among
workers. Each of them reads its share as one batch, and the answer is the one that a single worker
would have given.
-/

namespace ProcessCensus

namespace Release

/-- The release that a system tells, or the unknown one and a notice. -/
def detect {κ : Type} (tell : Attempt κ String) : Run κ Release :=
  Attempt.recover (do Attempt.ofExcept (parse (← tell))) fun failure => do
    Run.note (.releaseUnknown failure)
    return unknown

/-- The release in words. -/
def describe (release : Release) : String :=
  Text.describeStructure "OsVersion"
    [("major", toString release.major), ("minor", toString release.minor)]

end Release

/-- A system to take the census of. -/
structure Census (κ : Type) where
  source : Source κ
  release : Release
  settings : Settings
  /-- How many workers the machine can run at once. -/
  available : { n : Nat // 0 < n }

namespace Census

variable {κ : Type}

/-- The number of workers that share a listing. -/
def workers (census : Census κ) : Nat :=
  census.settings.workerCount census.available

/-- Looks at one process; there is none if it cannot be read. -/
def get (census : Census κ) (pid : Int32) : Run κ (Option Snapshot) := do
  let snapshot ← Snapshot.probe census.source pid census.release
  return if snapshot.isValid then some snapshot else none

/-- Looks at the process that asks. -/
def currentProcess (census : Census κ) : Run κ (Option Snapshot) := do
  census.get (← census.source.currentPid)

/-- One worker's share of a listing: its pids as one batch, without those that cannot be read. -/
def resolveShare (census : Census κ) (pids : List Int32) : Run κ (List Snapshot) := do
  let answers ← census.source.batch pids census.release
  let snapshots ← (pids.zip answers).mapM fun (pid, answer) =>
    Snapshot.ofAnswer pid census.release answer
  return snapshots.filter (·.isValid)

/-- The shares of all workers joined in order. If some broke off, so does the listing, as the first
of them did. -/
def joinShares : List (Except Abort (List Snapshot)) → Except Abort (List Snapshot)
  | [] => .ok []
  | .error abort :: _ => .error abort
  | .ok share :: rest => (joinShares rest).map (share ++ ·)

/-- Looks at the processes with the given pids, without those that cannot be read. Every worker
finishes its share even if another one breaks off. -/
def resolve (census : Census κ) (pids : List Int32) : Run κ (List Snapshot) := do
  let workers := min census.workers pids.length
  if workers ≤ 1 then census.resolveShare pids
  else
    let shares ← (chunks (ceilDiv pids.length workers) pids).mapM fun share =>
      (census.resolveShare share).settle
    ExceptT.mk (pure (joinShares shares))

/-- Every process that can be read. A system that cannot list its processes has none. -/
def everyProcess (census : Census κ) : Run κ (List Snapshot) := do
  match ← census.source.list.outcome with
  | .ok pids => census.resolve pids
  | .error failure =>
    Run.note (.listingFailed failure)
    return []

/-- The processes that a query asks for. -/
def processes (census : Census κ) (query : Query) : Run κ (List Snapshot) := do
  return query.apply (← census.everyProcess)

/-- The processes with the given pids, each looked at once, without those that cannot be read. -/
def processesByPids (census : Census κ) (pids : List Int32) : Run κ (List Snapshot) :=
  census.resolve pids.eraseDups

/-- The children of a process that a query asks for. -/
def children (census : Census κ) (parent : Int32) (query : Query) : Run κ (List Snapshot) := do
  return query.apply (Family.children parent (← census.everyProcess))

/-- The descendants of a process that a query asks for. One that it does not ask for still leads to
its own descendants. -/
def descendants (census : Census κ) (root : Int32) (query : Query) : Run κ (List Snapshot) := do
  return query.apply (Family.descendants root (← census.everyProcess))

/-- Looks at the given processes one by one, also at those that cannot be read, and applies a query
to what was seen. -/
def survey (census : Census κ) (pids : List Int32) (query : Query) : Run κ (List Snapshot) := do
  let snapshots ← pids.mapM fun pid => Snapshot.probe census.source pid census.release
  return query.apply snapshots

/-- The census in words. -/
def describe (census : Census κ) : String :=
  let settings := Text.describeStructure "Config"
    [("memoizer_expiration", Text.describeOption Text.duration census.settings.retention),
     ("threads", toString census.workers)]
  Text.describeStructure "OperatingSystem"
    [("platform", census.source.platform.tag), ("version", census.release.describe),
     ("config", settings)]

end Census

end ProcessCensus
