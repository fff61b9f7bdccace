import SecurePubSub.Authority.Snapshot
import SecurePubSub.Data.Attempts

namespace SecurePubSub.Authority

open SecurePubSub.Data SecurePubSub.Protocol

/-! Committing a snapshot, file operation by file operation. -/

/-- The files at the snapshot path and at its temporary sibling. -/
structure Directory where
  contents : Option Bytes
  temporary : Option Bytes
deriving DecidableEq

inductive FileOperation where
  | createNew
  | writeAll (bytes : Bytes)
  | syncAll
  | rename

def fileOperations : Operations Directory FileOperation where
  effect
    | .createNew, files =>
        match files.temporary with
        | none => some { files with temporary := some [] }
        | some _ => none
    | .writeAll bytes, files => some { files with temporary := files.temporary.map (· ++ bytes) }
    | .syncAll, files => some files
    | .rename, files =>
        match files.temporary with
        | none => none
        | some written => some ⟨some written, none⟩
  partially
    | .writeAll bytes, done, files =>
        { files with temporary := files.temporary.map (· ++ bytes.take done) }
    | _, _, files => files

namespace Directory

/-- `SnapshotFile::commit`, which does not return when the process stops. -/
def commit (files : Directory) (bytes : Bytes) (events : List Event) :
    Option (Except Error Unit) × Directory :=
  if bytes.length > maxSnapshotLen then (some (.error .oversized), files)
  else
    let attempted := fileOperations.attempt [.createNew, .writeAll bytes, .syncAll, .rename]
      events files
    match attempted.1 with
    | .completed => (some (.ok ()), attempted.2)
    | .failed => (some (.error .capacity), attempted.2)
    | .crashed => (none, attempted.2)

/-- `SnapshotFile::load`, where nothing but an absent file disturbs reading. -/
def load (files : Directory) : Except Error (Option Bytes) :=
  (⟨files.contents, files.temporary, []⟩ : SnapshotFile).load false

/-- Only the rename shows at the snapshot path. -/
theorem hidden_operations {bytes : Bytes} {operation : FileOperation}
    (member : operation ∈ [.createNew, .writeAll bytes, .syncAll]) :
    fileOperations.Hidden contents operation := by
  simp only [List.mem_cons, List.not_mem_nil, or_false] at member
  obtain rfl | rfl | rfl := member
  · constructor
    · intro files next applied
      simp only [fileOperations] at applied
      split at applied
      · cases applied
        rfl
      · cases applied
    · exact fun _ _ => rfl
  · constructor
    · intro files next applied
      cases applied
      rfl
    · exact fun _ _ => rfl
  · constructor
    · intro files next applied
      cases applied
      rfl
    · exact fun _ _ => rfl

/-- A temporary file in the way stops the sequence at its first operation. -/
theorem effects_commit (files : Directory) (bytes : Bytes) :
    fileOperations.effects [.createNew, .writeAll bytes, .syncAll, .rename] files =
      if files.temporary = none then some ⟨some bytes, none⟩ else none := by
  obtain ⟨contents, temporary⟩ := files
  cases temporary with
  | none => rfl
  | some leftover => rfl

/-- A commit leaves the snapshot as it was, or replaces it as a whole. -/
theorem commit_cases (files : Directory) (bytes : Bytes) (events : List Event) :
    ((files.commit bytes events).1 ≠ some (.ok ()) ∧
        (files.commit bytes events).2.contents = files.contents) ∨
      (((files.commit bytes events).1 = some (.ok ()) ∨ (files.commit bytes events).1 = none) ∧
        bytes.length ≤ maxSnapshotLen ∧ (files.commit bytes events).2 = ⟨some bytes, none⟩) := by
  rw [commit]
  by_cases large : bytes.length > maxSnapshotLen
  · rw [if_pos large]
    exact .inl ⟨nofun, rfl⟩
  · rw [if_neg large]
    dsimp only
    obtain ⟨incomplete, kept⟩ | ⟨unfailed, applied⟩ :=
      @Operations.attempt_cases _ _ _ fileOperations contents
        [.createNew, .writeAll bytes, .syncAll] .rename events files
        (fun _ member => hidden_operations member) (fun _ _ => rfl)
    · apply Or.inl
      simp only [List.cons_append, List.nil_append] at incomplete kept
      cases outcome : (fileOperations.attempt [.createNew, .writeAll bytes, .syncAll, .rename]
          events files).1 with
      | completed => exact absurd outcome incomplete
      | failed => exact ⟨nofun, kept⟩
      | crashed => exact ⟨nofun, kept⟩
    · apply Or.inr
      simp only [List.cons_append, List.nil_append] at unfailed applied
      rw [effects_commit] at applied
      split at applied
      · have result := (Option.some.inj applied).symm
        cases outcome : (fileOperations.attempt [.createNew, .writeAll bytes, .syncAll, .rename]
            events files).1 with
        | completed => exact ⟨.inl rfl, Nat.not_lt.mp large, result⟩
        | failed => exact absurd outcome unfailed
        | crashed => exact ⟨.inr rfl, Nat.not_lt.mp large, result⟩
      · cases applied

theorem commit_undisturbed {files : Directory} {bytes : Bytes} {events : List Event}
    (undisturbed : ∀ event ∈ events, event = .succeeds) (fits : bytes.length ≤ maxSnapshotLen)
    (clear : files.temporary = none) :
    files.commit bytes events = (some (.ok ()), ⟨some bytes, none⟩) := by
  have applied := files.effects_commit bytes
  rw [if_pos clear] at applied
  rw [commit, if_neg (Nat.not_lt.mpr fits),
    Operations.attempt_undisturbed undisturbed applied]

/-- A leftover blocks every commit and stays. -/
theorem commit_blocked {files : Directory} {leftover : Bytes}
    (blocked : files.temporary = some leftover) (bytes : Bytes) (events : List Event) :
    (files.commit bytes events).1 ≠ some (.ok ()) ∧ (files.commit bytes events).2 = files := by
  rw [commit]
  by_cases large : bytes.length > maxSnapshotLen
  · rw [if_pos large]
    exact ⟨by simp, rfl⟩
  · rw [if_neg large, Operations.attempt]
    cases events.headD .succeeds with
    | crashes done => exact ⟨by simp, rfl⟩
    | fails done => exact ⟨by simp, rfl⟩
    | succeeds =>
        have exists_already : fileOperations.effect .createNew files = none := by
          simp only [fileOperations, blocked]
        simp only [exists_already]
        exact ⟨by simp, trivial⟩

end Directory

/-! ## The faults of a snapshot file -/

/-- A fault as what happens at the operations of the commit. -/
def CommitFault.events : CommitFault → List Event
  | .none => []
  | .openFails => [.fails 0]
  | .writeFails written => [.succeeds, .fails written]
  | .syncFails => [.succeeds, .succeeds, .fails 0]
  | .renameFails => [.succeeds, .succeeds, .succeeds, .fails 0]

/-- The commit of a snapshot file is the one that goes through its operations. -/
theorem SnapshotFile.commit_eq (file : SnapshotFile) (bytes : Bytes) :
    (⟨file.contents, file.temporary⟩ : Directory).commit bytes (file.faults.headD .none).events =
      (some (file.commit bytes).1,
        ⟨(file.commit bytes).2.contents, (file.commit bytes).2.temporary⟩) := by
  obtain ⟨contents, temporary, faults⟩ := file
  rw [Directory.commit, SnapshotFile.commit]
  by_cases large : bytes.length > maxSnapshotLen
  · rw [if_pos large, if_pos large]
  · rw [if_neg large, if_neg large]
    cases temporary with
    | some leftover => cases faults.headD .none <;> rfl
    | none => cases faults.headD .none <;> rfl

/-! ## Histories of commits -/

/-- One call of `SnapshotFile::commit` and what the environment does during it. -/
structure CommitAttempt where
  bytes : Bytes
  events : List Event
deriving DecidableEq

/-- What happens at the open, the write, the sync and the rename. -/
def CommitAttempt.event (attempt : CommitAttempt) (operation : Nat) : Event :=
  attempt.events.getD operation .succeeds

/-- The attempt creates the temporary file and is stopped before the rename is done. -/
def CommitAttempt.Strands (attempt : CommitAttempt) : Prop :=
  attempt.bytes.length ≤ maxSnapshotLen ∧ attempt.event 0 = .succeeds ∧
    ¬ (attempt.event 1 = .succeeds ∧ attempt.event 2 = .succeeds ∧ attempt.event 3 = .succeeds)

namespace Directory

def after (files : Directory) (history : List CommitAttempt) : Directory :=
  history.foldl (fun files attempt => (files.commit attempt.bytes attempt.events).2) files

/-- The temporary file is left behind exactly by an attempt that strands. -/
theorem commit_strands {files : Directory} (clear : files.temporary = none)
    (attempt : CommitAttempt) :
    (files.commit attempt.bytes attempt.events).2.temporary = none ↔ ¬ attempt.Strands := by
  obtain ⟨bytes, events⟩ := attempt
  obtain ⟨contents, temporary⟩ := files
  cases clear
  have tail (events : List Event) (index : Nat) :
      events.tail.getD index .succeeds = events.getD (index + 1) .succeeds := by
    cases events <;> rfl
  have head (events : List Event) : events.headD .succeeds = events.getD 0 .succeeds := by
    cases events <;> rfl
  rw [commit, CommitAttempt.Strands]
  by_cases large : bytes.length > maxSnapshotLen
  · rw [if_pos large]
    simp only [Nat.not_le.mpr large, false_and, not_false_eq_true]
  rw [if_neg large]
  simp only [Nat.not_lt.mp large, true_and, CommitAttempt.event, Operations.attempt, head, tail,
    fileOperations, Nat.zero_add, Nat.reduceAdd]
  cases events.getD 0 .succeeds with
  | crashes done => simp
  | fails done => simp
  | succeeds =>
      cases events.getD 1 .succeeds with
      | crashes done => simp
      | fails done => simp
      | succeeds =>
          cases events.getD 2 .succeeds with
          | crashes done => simp
          | fails done => simp
          | succeeds =>
              cases events.getD 3 .succeeds with
              | crashes done => simp
              | fails done => simp
              | succeeds => cases events.getD 4 .succeeds <;> simp

theorem after_blocked {files : Directory} {leftover : Bytes}
    (blocked : files.temporary = some leftover) (history : List CommitAttempt) :
    files.after history = files := by
  induction history with
  | nil => rfl
  | cons attempt later ih =>
      rw [after, List.foldl_cons, (commit_blocked blocked attempt.bytes attempt.events).2]
      exact ih

theorem after_clear_iff {files : Directory} (clear : files.temporary = none)
    (history : List CommitAttempt) :
    (files.after history).temporary = none ↔ ∀ attempt ∈ history, ¬ attempt.Strands := by
  induction history generalizing files with
  | nil => exact ⟨fun _ _ member => (nomatch member), fun _ => clear⟩
  | cons attempt later ih =>
      have here := commit_strands clear attempt
      rw [List.forall_mem_cons, ← here]
      cases left : (files.commit attempt.bytes attempt.events).2.temporary with
      | none =>
          have rest := ih left
          rw [after, List.foldl_cons]
          exact rest.trans ⟨fun unstranded => ⟨rfl, unstranded⟩, fun both => both.2⟩
      | some leftover =>
          have stuck : files.after (attempt :: later) =
              (files.commit attempt.bytes attempt.events).2 := after_blocked left later
          rw [stuck, left]
          constructor
          · intro impossible
            cases impossible
          · intro both
            cases both.1

/-- A later undisturbed commit is acknowledged and read back exactly when no attempt of the history
was stopped between creating the temporary file and renaming it. -/
theorem recovers_iff (contents : Option Bytes) (history : List CommitAttempt) (bytes : Bytes)
    (events : List Event) (fits : bytes.length ≤ maxSnapshotLen)
    (undisturbed : ∀ event ∈ events, event = .succeeds) :
    ((((⟨contents, none⟩ : Directory).after history).commit bytes events).1 = some (.ok ()) ∧
      (((⟨contents, none⟩ : Directory).after history).commit bytes events).2.load =
        .ok (some bytes)) ↔
      ∀ attempt ∈ history, ¬ attempt.Strands := by
  have clear : (⟨contents, none⟩ : Directory).temporary = none := rfl
  rw [← after_clear_iff clear history]
  clear clear
  generalize (⟨contents, none⟩ : Directory).after history = files
  constructor
  · intro ⟨acknowledged, _⟩
    cases left : files.temporary with
    | none => rfl
    | some leftover => exact absurd acknowledged (commit_blocked left bytes events).1
  · intro clear
    rw [commit_undisturbed undisturbed fits clear]
    refine ⟨rfl, ?_⟩
    rw [load, SnapshotFile.load]
    exact if_pos fits

/-- A write that fails once leaves a file in the way of every later commit. -/
theorem failed_write_blocks_recovery :
    ¬ ∀ (contents : Option Bytes) (history : List CommitAttempt) (bytes : Bytes)
        (events : List Event), bytes.length ≤ maxSnapshotLen →
      (∀ event ∈ events, event = .succeeds) →
      (((⟨contents, none⟩ : Directory).after history).commit bytes events).1 = some (.ok ()) ∧
        (((⟨contents, none⟩ : Directory).after history).commit bytes events).2.load =
          .ok (some bytes) := by
  intro claimed
  have acknowledged := (claimed none [⟨[1], [.succeeds, .fails 0]⟩] [2] [] (by decide)
    (fun _ member => nomatch member)).1
  revert acknowledged
  decide +kernel

theorem sample_recovers_iff :
    ((((⟨some [7], none⟩ : Directory).after
          [⟨[1], [.fails 0]⟩, ⟨[2], []⟩, ⟨[3], [.crashes 0]⟩]).commit [4] [.succeeds]).1 =
        some (.ok ()) ∧
      (((⟨some [7], none⟩ : Directory).after
          [⟨[1], [.fails 0]⟩, ⟨[2], []⟩, ⟨[3], [.crashes 0]⟩]).commit [4] [.succeeds]).2.load =
        .ok (some [4])) ↔
      ∀ attempt ∈ ([⟨[1], [.fails 0]⟩, ⟨[2], []⟩, ⟨[3], [.crashes 0]⟩] : List CommitAttempt),
        ¬ attempt.Strands :=
  recovers_iff (some [7]) [⟨[1], [.fails 0]⟩, ⟨[2], []⟩, ⟨[3], [.crashes 0]⟩] [4] [.succeeds]
    (by decide) (by decide)

end Directory

end SecurePubSub.Authority
