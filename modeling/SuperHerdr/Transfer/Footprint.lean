import SuperHerdr.Transfer.Outcome

/-!
# What a relay does to its host

An attempt appends to the file it resumes, or makes one in a directory of its own, and that is
all it touches: what it adds comes off the front of its sender's stream, and it gives up no path
but its own. Where it keeps a file, it is the one the receipt names. This holds however the
attempt fails.
-/

namespace SuperHerdr

/-- The path of the file an attempt is about: the one it resumes, or one in a directory made for
it. -/
def TransferPlan.Own (plan : TransferPlan) (directory path : String) : Prop :=
  plan.resumed = some path ∨
    plan.resumed = none ∧ ∃ name : StagedName, path = directory ++ "/" ++ name.name

/-- An attempt that touches no file but its own, and only adds to it. -/
structure Attempt.Tidy {α : Type} (plan : TransferPlan) (directory : String)
    (held : List UInt8) (items : List RelayItem) (tried : Attempt α) : Prop where
  file : ∃ added, tried.file = plan.before held ++ added ∧ added <+: RelayItem.delivered items
  received : ∀ receipt, tried.received = some receipt → plan.Own directory receipt.path
  discarded : ∀ path ∈ tried.discarded, plan.Own directory path

section Relay

variable {sha256 : List UInt8 → String} {plan : TransferPlan} {items : List RelayItem}
  {directory : String} {held : List UInt8} {staged : Option StagedName}

theorem TransferPlan.stored_eq (plan : TransferPlan) (held : List UInt8) (accepts keeps : ℕ)
    (items : List RelayItem) :
    ∃ added, plan.stored held accepts keeps items = plan.before held ++ added ∧
      added <+: RelayItem.delivered items :=
  ⟨_, rfl, (List.take_prefix ..).trans (plan.copies accepts items).offered⟩

theorem SshSession.own_path {session : SshSession} {path : String}
    (hpath : session.path staged plan = .ok path) : plan.Own session.directory path := by
  unfold SshSession.path at hpath
  unfold TransferPlan.Own TransferPlan.resumed
  cases hstaging : plan.staging with
  | fresh name =>
    rw [hstaging] at hpath
    cases staged with
    | none => cases hpath
    | some name =>
      cases hpath
      exact .inr ⟨rfl, name, rfl⟩
  | resume resumed offset =>
    rw [hstaging] at hpath
    cases hpath
    exact .inl rfl

theorem LocalDisk.own_path {disk : LocalDisk} {path : String}
    (hpath : disk.path staged plan = .ok path)
    (hdirectory : ∀ made, disk.directory = some made → made = directory) :
    plan.Own directory path := by
  unfold LocalDisk.path at hpath
  unfold TransferPlan.Own TransferPlan.resumed
  cases hstaging : plan.staging with
  | fresh name =>
    rw [hstaging] at hpath
    cases staged with
    | none => cases hpath
    | some name =>
      cases hmade : disk.directory with
      | none =>
        rw [hmade] at hpath
        cases hpath
      | some made =>
        rw [hmade] at hpath
        cases hpath
        rw [hdirectory made hmade]
        exact .inr ⟨rfl, name, rfl⟩
  | resume resumed offset =>
    rw [hstaging] at hpath
    cases hpath
    exact .inl rfl

theorem Attempt.tidy_failed {α : Type} (message : String) (source : RelayReader) :
    Attempt.Tidy plan directory held items
      (⟨.error message, none, plan.before held, [], source⟩ : Attempt α) :=
  ⟨⟨[], by simp, List.nil_prefix⟩, by simp, by simp⟩

theorem remoteAttempt_tidy {session : SshSession} {path : String}
    (hpath : session.path staged plan = .ok path) :
    (remoteAttempt sha256 session staged plan (RelayReader.new items)).Tidy plan
      session.directory session.held items := by
  rcases remoteAttempt_cases sha256 items hpath with ⟨-, message, heq⟩ | ⟨-, heq⟩
  · rw [heq]
    exact Attempt.tidy_failed ..
  · rw [heq]
    refine ⟨plan.stored_eq .., fun receipt hreceipt => ?_, by simp⟩
    have hanswer : session.receipt sha256 path
        (plan.stored session.held session.accepts session.keeps items) = .ok receipt := by
      cases hanswer : session.receipt sha256 path
          (plan.stored session.held session.accepts session.keeps items) with
      | error message => simp [hanswer, Except.toOption] at hreceipt
      | ok answer => simpa [hanswer, Except.toOption] using hreceipt
    obtain ⟨-, rfl⟩ := SshSession.receipt_eq_ok_iff.mp hanswer
    exact SshSession.own_path hpath

theorem localAttempt_tidy {disk : LocalDisk}
    (hdirectory : ∀ made, disk.directory = some made → made = directory) :
    (localAttempt sha256 disk staged plan (RelayReader.new items)).Tidy plan directory disk.held
      items := by
  rcases disk.path_cases (RelayReader.new items) with ⟨path, hpath⟩ | ⟨-, message, heq⟩
  · have hown := LocalDisk.own_path hpath hdirectory
    rcases localAttempt_cases sha256 items hpath with
      ⟨-, message, heq⟩ | ⟨-, -, message, heq⟩ | ⟨-, -, message, heq⟩ | ⟨-, -, heq⟩
    · rw [heq]
      exact Attempt.tidy_failed ..
    · rw [heq]
      exact ⟨plan.stored_eq .., by simp, by simp⟩
    · rw [heq]
      refine ⟨plan.stored_eq .., by simp, fun discarded h => ?_⟩
      rw [List.mem_singleton.mp h]
      exact hown
    · rw [heq]
      refine ⟨plan.stored_eq .., fun receipt h => ?_, by simp⟩
      cases h
      exact hown
  · rw [heq]
    exact Attempt.tidy_failed ..

/-- A host that makes one directory and holds one file. -/
def Host.Offers (host : Host) (directory : String) (held : List UInt8) : Prop :=
  match host with
  | .ssh session => session.directory = directory ∧ session.held = held
  | .here disk => (∀ made, disk.directory = some made → made = directory) ∧ disk.held = held

theorem uploadStream_tidy {host : Host} (hhost : host.Offers directory held) :
    (uploadStream sha256 host plan (RelayReader.new items)).Tidy plan directory held items := by
  have hheld : host.held = held := by
    cases host <;> exact hhost.2
  unfold uploadStream
  cases hstage : plan.stage with
  | error message =>
    simp only [hheld]
    exact Attempt.tidy_failed ..
  | ok staged =>
    have htried : (attempt sha256 host staged plan (RelayReader.new items)).Tidy plan directory
        held items := by
      cases host with
      | ssh session =>
        obtain ⟨rfl, rfl⟩ := hhost
        obtain ⟨path, hpath⟩ := session.exists_path hstage
        exact remoteAttempt_tidy hpath
      | here disk =>
        obtain ⟨hdirectory, rfl⟩ := hhost
        exact localAttempt_tidy hdirectory
    simp only
    cases hresult : (attempt sha256 host staged plan (RelayReader.new items)).result with
    | error message => exact ⟨htried.file, htried.received, htried.discarded⟩
    | ok receipt =>
      refine ⟨htried.file, htried.received, fun path hpath => ?_⟩
      rcases List.mem_append.mp hpath with hpath | hpath
      · exact htried.discarded path hpath
      · rw [mem_finishAttempt hpath]
        exact htried.received receipt (attempt_receipted hstage hresult).received

/-- The path of the file an outcome keeps. -/
def Relayed.path : Relayed → Option String
  | .done path _ | .interrupted path _ => some path
  | .refused _ | .withdrawn => none

theorem Relayed.path_of_dropped {outcome : Relayed} (h : outcome.dropped = true) :
    outcome.path = none := by
  cases outcome <;> first | rfl | cases h

/-- **What a relay does to its host**: it adds to its own file, and gives up no other. A file it
keeps is the one the receipt names. -/
structure Report.Tidy (plan : TransferPlan) (directory : String) (held : List UInt8)
    (items : List RelayItem) (report : Report) : Prop where
  file : ∃ added, report.file = plan.before held ++ added ∧ added <+: RelayItem.delivered items
  received : ∀ receipt, report.received = some receipt → plan.Own directory receipt.path
  discarded : ∀ path ∈ report.discarded, plan.Own directory path
  kept : ∀ path, report.outcome.path = some path →
    (∃ receipt, report.received = some receipt ∧ receipt.path = path) ∧ report.discarded = []

theorem relay_tidy {host : Host} (hhost : host.Offers directory held) (timely : Bool) :
    (relay sha256 host plan items timely).Tidy plan directory held items := by
  have htidy := @uploadStream_tidy sha256 plan items directory held host hhost
  have hok := @uploadStream_ok sha256 plan items host
  unfold relay
  generalize uploadStream sha256 host plan (RelayReader.new items) = uploaded at *
  refine ⟨htidy.file, htidy.received, fun path hpath => ?_, fun path houtcome => ?_⟩
  · rcases List.mem_append.mp hpath with hpath | hpath
    · exact htidy.discarded path hpath
    · cases hresult : uploaded.result with
      | error message =>
        simp [hresult, (judge_error plan timely message uploaded.source).2] at hpath
      | ok transferred =>
        obtain ⟨receipt, hreceipted, htransferred⟩ := hok hresult
        rw [hresult] at hpath
        have hown := htidy.received receipt hreceipted.received
        rcases judge_cases plan timely uploaded.source htransferred with
          ⟨hjudge, -⟩ | ⟨hdiscarded, -⟩ | hjudge
        · simp [hjudge] at hpath
        · rw [hdiscarded, List.mem_singleton] at hpath
          rwa [hpath]
        · simp [hjudge] at hpath
  · simp only at houtcome ⊢
    cases hresult : uploaded.result with
    | error message =>
      have hnone := Relayed.path_of_dropped (judge_error plan timely message uploaded.source).1
      rw [hresult, hnone] at houtcome
      cases houtcome
    | ok transferred =>
      obtain ⟨receipt, hreceipted, htransferred⟩ := hok hresult
      rw [hresult] at houtcome
      rcases judge_cases plan timely uploaded.source htransferred with
        ⟨hjudge, -⟩ | ⟨-, hdropped⟩ | hjudge
      · rw [hjudge] at houtcome ⊢
        cases houtcome
        exact ⟨⟨receipt, hreceipted.received, rfl⟩, by rw [hreceipted.discarded]; rfl⟩
      · rw [Relayed.path_of_dropped hdropped] at houtcome
        cases houtcome
      · rw [hjudge] at houtcome ⊢
        cases houtcome
        exact ⟨⟨receipt, hreceipted.received, rfl⟩, by rw [hreceipted.discarded]; rfl⟩

theorem Report.Tidy.own_written {report : Report}
    (htidy : report.Tidy plan directory held items) {path : String}
    (hwritten : (plan.resumed <|> report.received.map Receipt.path) = some path) :
    plan.Own directory path := by
  cases hresumed : plan.resumed with
  | some resumed =>
    rw [hresumed] at hwritten
    cases hwritten
    exact .inl hresumed
  | none =>
    rw [hresumed] at hwritten
    obtain ⟨receipt, hreceipt, rfl⟩ := Option.map_eq_some_iff.mp hwritten
    exact htidy.received receipt hreceipt

theorem Report.Tidy.written_of_kept {report : Report}
    (htidy : report.Tidy plan directory held items) {path : String}
    (hkept : report.outcome.path = some path) :
    (plan.resumed <|> report.received.map Receipt.path) = some path := by
  obtain ⟨⟨receipt, hreceipt, rfl⟩, -⟩ := htidy.kept path hkept
  rcases htidy.received receipt hreceipt with hresumed | ⟨hresumed, -⟩
  · rw [hresumed]
    rfl
  · rw [hresumed, hreceipt]
    rfl

end Relay

end SuperHerdr
