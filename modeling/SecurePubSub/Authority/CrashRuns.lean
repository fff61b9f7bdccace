import SecurePubSub.Authority.SnapshotCommit
import SecurePubSub.Authority.StoreCalls
import SecurePubSub.Data.Machine

namespace SecurePubSub.Authority

open SecurePubSub.Data SecurePubSub.Data.Fallible SecurePubSub.Protocol

/-! The file-backed store through failures, crashes and restarts.

While the store runs, the file holds what the last acknowledged commit wrote or,
before one, what the store was opened from. A call that is cut off leaves that or
all of what it was writing.
-/

def StoreAnswer.isErr : StoreAnswer → Bool
  | .keys (.error _) => true
  | .done (.error _) => true
  | .claimed (.error _) => true
  | _ => false

/-- A store on its files; the state is there while the process runs. Nothing reads the field
`acknowledged`, which is what the last acknowledged commit wrote or the last start read. -/
structure StoreHost where
  limits : StoreLimits
  files : Directory
  process : Option StoreState
  acknowledged : Option Bytes

/-- A call with what happens to its file operations, a crash between calls, or a start. -/
inductive HostInput where
  | call (call : StoreCall) (events : List Event)
  | crash
  | start (readFails : Bool)

namespace StoreHost

/-- A host whose process has not been started yet. -/
def stopped (limits : StoreLimits) (files : Directory) : StoreHost :=
  ⟨limits, files, none, files.contents⟩

def store (host : StoreHost) (state : StoreState) (faults : List CommitFault) : PersistentStore :=
  ⟨state, ⟨host.files.contents, host.files.temporary, faults⟩, host.limits⟩

/-- One call, answered unless the process stops in it. -/
def answer (host : StoreHost) (state : StoreState) (call : StoreCall) (events : List Event) :
    Option StoreAnswer × StoreHost :=
  match (host.store state []).candidate call with
  | none => (some ((host.store state []).run call).1, host)
  | some next =>
      match encodeState next with
      | .error error => (some (call.committed (.error error)), host)
      | .ok bytes =>
          let written := host.files.commit bytes events
          match written.1 with
          | none => (none, { host with files := written.2, process := none })
          | some (.error error) =>
              (some (call.committed (.error error)), { host with files := written.2 })
          | some (.ok _) =>
              (some (call.committed (.ok ())),
                { host with
                  files := written.2
                  process := some next
                  acknowledged := some bytes })

def step (host : StoreHost) : HostInput → StoreHost
  | .call call events =>
      match host.process with
      | none => host
      | some state => (host.answer state call events).2
  | .crash => { host with process := none }
  | .start readFails =>
      match host.process, PersistentStore.open ⟨host.files.contents, host.files.temporary, []⟩
          host.limits readFails with
      | none, .ok opened =>
          { host with process := some opened.state, acknowledged := host.files.contents }
      | _, _ => host

def after (host : StoreHost) (inputs : List HostInput) : StoreHost := Machine.run step host inputs

theorem store_candidate (host : StoreHost) (state : StoreState) (faults : List CommitFault)
    (call : StoreCall) :
    (host.store state faults).candidate call = (host.store state []).candidate call := by
  cases call <;> rfl

/-- Under a fault of the snapshot file a call is that of the file-backed store. -/
theorem answer_eq_run (host : StoreHost) {state : StoreState} (running : host.process = some state)
    (fault : CommitFault) (call : StoreCall) :
    (host.answer state call fault.events).1 = some ((host.store state [fault]).run call).1 ∧
      (host.answer state call fault.events).2.process =
        some ((host.store state [fault]).run call).2.state ∧
      (host.answer state call fault.events).2.files =
        ⟨((host.store state [fault]).run call).2.snapshot.contents,
          ((host.store state [fault]).run call).2.snapshot.temporary⟩ := by
  rw [answer]
  cases found : (host.store state []).candidate call with
  | none =>
      obtain ⟨reply, replies⟩ := PersistentStore.run_of_none found
      have here := replies ⟨host.files.contents, host.files.temporary, []⟩
      have there := replies ⟨host.files.contents, host.files.temporary, [fault]⟩
      simp only [store, here, there]
      exact ⟨trivial, running, trivial⟩
  | some next =>
      have present := (host.store_candidate state [fault] call).trans found
      rw [PersistentStore.run_of_some present, PersistentStore.commit]
      cases encoded : encodeState next with
      | error error =>
          simp only [encoded]
          exact ⟨rfl, running, rfl⟩
      | ok bytes =>
          have written := SnapshotFile.commit_eq
            ⟨host.files.contents, host.files.temporary, [fault]⟩ bytes
          rcases outcome : SnapshotFile.commit
            ⟨host.files.contents, host.files.temporary, [fault]⟩ bytes with ⟨result, file⟩
          rw [outcome] at written
          have same : host.files.commit bytes fault.events =
            (some result, ⟨file.contents, file.temporary⟩) := written
          cases result with
          | error error =>
              simp only [encoded, store, same, outcome]
              exact ⟨rfl, running, rfl⟩
          | ok value =>
              simp only [encoded, store, same, outcome]
              exact ⟨rfl, rfl, rfl⟩

/-- All that one call can do: leave memory and the snapshot alone, be acknowledged with the file
written, or stop with the file as it was or written. -/
theorem answer_cases (host : StoreHost) (state : StoreState) (call : StoreCall)
    (events : List Event) :
    (∃ answer files, host.answer state call events = (some answer, { host with files := files }) ∧
        files.contents = host.files.contents) ∨
      (∃ next bytes, encodeState next = .ok bytes ∧ bytes.length ≤ maxSnapshotLen ∧
        host.answer state call events = (some (call.committed (.ok ())),
          ⟨host.limits, ⟨some bytes, none⟩, some next, some bytes⟩)) ∨
      (∃ files, host.answer state call events =
          (none, { host with files := files, process := none }) ∧
        (files.contents = host.files.contents ∨
          ∃ next bytes, (host.store state []).candidate call = some next ∧
            encodeState next = .ok bytes ∧ bytes.length ≤ maxSnapshotLen ∧
            files.contents = some bytes)) := by
  rw [answer]
  cases found : (host.store state []).candidate call with
  | none => exact .inl ⟨_, host.files, rfl, rfl⟩
  | some next =>
      cases encoded : encodeState next with
      | error error =>
          simp only [encoded]
          exact .inl ⟨_, host.files, rfl, rfl⟩
      | ok bytes =>
          have cases := host.files.commit_cases bytes events
          rcases written : host.files.commit bytes events with ⟨result, files⟩
          rw [written] at cases
          simp only [encoded, written]
          obtain ⟨unacknowledged, kept⟩ | ⟨result, fits, replaced⟩ := cases
          · cases result with
            | none => exact .inr (.inr ⟨files, rfl, .inl kept⟩)
            | some returned =>
                cases returned with
                | error error => exact .inl ⟨_, files, rfl, kept⟩
                | ok value => exact absurd rfl unacknowledged
          · cases replaced
            obtain rfl | rfl := result
            · exact .inr (.inl ⟨next, bytes, encoded, fits, rfl⟩)
            · exact .inr (.inr ⟨_, rfl, .inr ⟨next, bytes, rfl, encoded, fits, rfl⟩⟩)

/-- While the store runs the file is what was acknowledged, and it can be read. -/
def Synchronized (host : StoreHost) : Prop :=
  ∀ state, host.process = some state →
    host.files.contents = host.acknowledged ∧ host.files.load = .ok host.acknowledged

theorem load_of_fits {files : Directory} {bytes : Bytes} (held : files.contents = some bytes)
    (fits : bytes.length ≤ maxSnapshotLen) : files.load = .ok (some bytes) := by
  rw [Directory.load, SnapshotFile.load, held]
  exact if_pos fits

theorem load_congr {files other : Directory} (same : files.contents = other.contents) :
    files.load = other.load := by
  rw [Directory.load, Directory.load, SnapshotFile.load, SnapshotFile.load, same]

namespace Synchronized

variable {host : StoreHost}

theorem stopped (limits : StoreLimits) (files : Directory) :
    (StoreHost.stopped limits files).Synchronized := fun _ running => nomatch running

theorem answer (sound : host.Synchronized) {state : StoreState}
    (running : host.process = some state) (call : StoreCall) (events : List Event) :
    (host.answer state call events).2.Synchronized := by
  obtain ⟨contents, load⟩ := sound state running
  obtain ⟨reply, files, result, kept⟩ | ⟨next, bytes, _, fits, result⟩ | ⟨files, result, _⟩ :=
    host.answer_cases state call events
  · rw [result]
    exact fun _ _ => ⟨kept.trans contents, (load_congr kept).trans load⟩
  · rw [result]
    exact fun _ _ => ⟨rfl, load_of_fits rfl fits⟩
  · rw [result]
    exact fun _ stillRunning => nomatch stillRunning

theorem step (sound : host.Synchronized) (input : HostInput) : (host.step input).Synchronized := by
  cases input with
  | crash => exact fun _ running => nomatch running
  | call call events =>
      rw [StoreHost.step]
      cases running : host.process with
      | none => exact sound
      | some state => exact sound.answer running call events
  | start readFails =>
      rw [StoreHost.step]
      split
      · rename_i opened stopped loaded
        intro state _
        obtain ⟨found, read, _⟩ := bind_eq_ok.mp loaded
        have contents : host.files.contents = found := SnapshotFile.load_eq_ok read
        refine ⟨rfl, ?_⟩
        change host.files.load = .ok host.files.contents
        cases readFails with
        | true => cases read
        | false => rw [contents, ← read, Directory.load]
      · exact sound

theorem after (sound : host.Synchronized) (inputs : List HostInput) :
    (host.after inputs).Synchronized :=
  Machine.run_preserves Synchronized (fun _ input current => current.step input) sound

end Synchronized

theorem committed_isErr (call : StoreCall) : (call.committed (.ok ())).isErr = false := by
  cases call <;> rfl

/-- In every run through failures, crashes and restarts: a call that returns an error leaves memory
and the snapshot alone, one that changes the state is acknowledged only with the file holding
its encoding, and a process that stops leaves the last acknowledged snapshot or the one that was
being written. -/
theorem memory_and_disk_agree {limits : StoreLimits} {files : Directory} {inputs : List HostInput}
    {state : StoreState} (running : ((stopped limits files).after inputs).process = some state)
    (call : StoreCall) (events : List Event) :
    let host := (stopped limits files).after inputs
    let result := host.answer state call events
    (∀ answer, result.1 = some answer → answer.isErr = true →
        result.2.process = some state ∧ result.2.files.contents = host.files.contents) ∧
      (∀ answer, result.1 = some answer → answer.isErr = false → result.2.process ≠ some state →
        ∃ next bytes, result.2.process = some next ∧ encodeState next = .ok bytes ∧
          result.2.files.contents = some bytes) ∧
      (result.1 = none →
        result.2.files.load = .ok host.acknowledged ∨
          ∃ next bytes, (host.store state []).candidate call = some next ∧
            encodeState next = .ok bytes ∧ result.2.files.load = .ok (some bytes)) ∧
      host.files.load = .ok host.acknowledged := by
  have sound := (Synchronized.stopped limits files).after inputs
  generalize (stopped limits files).after inputs = host at running sound
  obtain ⟨contents, load⟩ := sound state running
  intro current result
  subst current
  obtain ⟨reply, written, done, kept⟩ | ⟨next, bytes, encoded, fits, done⟩ |
      ⟨written, done, outcome⟩ := host.answer_cases state call events
  · have same : result = _ := done
    rw [same]
    exact ⟨fun _ _ _ => ⟨running, kept⟩, fun _ _ _ changed => absurd running changed, nofun, load⟩
  · have same : result = _ := done
    rw [same]
    refine ⟨?_, fun _ _ _ _ => ⟨next, bytes, rfl, encoded, rfl⟩, nofun, load⟩
    intro answer returned failed
    cases returned
    rw [committed_isErr] at failed
    cases failed
  · have same : result = _ := done
    rw [same]
    refine ⟨nofun, nofun, fun _ => ?_, load⟩
    obtain kept | ⟨next, bytes, found, encoded, fits, replaced⟩ := outcome
    · exact .inl ((load_congr kept).trans load)
    · exact .inr ⟨next, bytes, found, encoded, load_of_fits replaced fits⟩

/-- A host whose first commit failed and which was then stopped and started again. -/
def sample : StoreHost :=
  (stopped ⟨8, 8, 8, 8, 100⟩ ⟨none, none⟩).after
    [.start false, .call (.provision ⟨.fill 16 1⟩ ⟨.fill 32 1, .fill 32 1⟩) [.fails 0], .crash,
      .start false]

def sampleCall : StoreCall := .provision ⟨.fill 16 1⟩ ⟨.fill 32 1, .fill 32 1⟩

/-- The process stops right behind the rename. -/
def sampleEvents : List Event := [.succeeds, .succeeds, .succeeds, .succeeds, .crashes 0]

theorem sample_memory_and_disk_agree :
    (sample.answer (.empty ⟨8, 8, 8, 8, 100⟩) sampleCall sampleEvents).1 = none ∧
      ((sample.answer (.empty ⟨8, 8, 8, 8, 100⟩) sampleCall sampleEvents).2.files.load =
          .ok sample.acknowledged ∨
        ∃ next bytes, (sample.store (.empty ⟨8, 8, 8, 8, 100⟩) []).candidate sampleCall = some next ∧
          encodeState next = .ok bytes ∧
          (sample.answer (.empty ⟨8, 8, 8, 8, 100⟩) sampleCall sampleEvents).2.files.load =
            .ok (some bytes)) := by
  have law := @memory_and_disk_agree ⟨8, 8, 8, 8, 100⟩ ⟨none, none⟩
    [.start false, .call (.provision ⟨.fill 16 1⟩ ⟨.fill 32 1, .fill 32 1⟩) [.fails 0], .crash,
      .start false] (.empty ⟨8, 8, 8, 8, 100⟩) rfl sampleCall sampleEvents
  have stopped : (sample.answer (.empty ⟨8, 8, 8, 8, 100⟩) sampleCall sampleEvents).1 = none := rfl
  exact ⟨stopped, law.2.2.1 stopped⟩

end StoreHost

end SecurePubSub.Authority
