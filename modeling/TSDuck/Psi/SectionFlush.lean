import TSDuck.Psi.SectionDemux
import Mathlib.Data.List.Flatten
import Mathlib.Data.List.Nodup

/-!
# Flushing the sections of a demux

`packAndFlushSections` walks through the contexts of the PIDs and, in each of them, through the
contexts of the tables, and forces their notification. What concerns the PID of the table is delayed
until the last handler of the PID returns: then the context of the PID is erased, although the walk
is still there and goes to the next PID from it.

The walk is a machine whose inputs are what the handler does. `flushesSafely_iff`: a flush is safe
when no handler which is called resets the demux or the PID of its table.

Scope. A map of the code is the list of its entries in order, and an iterator is a place between two
parts of this list: another entry which is erased disappears from its part.
-/

namespace TSDuck

/-- A PID with the keys of its tables. -/
structure PIDEntry where
  pid : ℕ
  context : PIDContext
  etids : List ETID

/-- The contexts of a demux: a map has one entry for each key. -/
structure DemuxContexts where
  entries : List PIDEntry
  sorted : entries.Pairwise (·.pid < ·.pid)
  nodup : ∀ entry ∈ entries, entry.etids.Nodup

/-- The iterators of a flush. -/
structure Flush where
  passed : List PIDEntry
  pid : ℕ
  context : PIDContext
  notified : List ETID
  remaining : List ETID
  following : List PIDEntry
  resetPending : Bool
  pidResetPending : Bool

inductive FlushState
  | running (flush : Flush)
  | finished (entries : List PIDEntry)
  | advancedErased (entries : List PIDEntry)

/-- A table is notified, or all those of a PID are done. -/
inductive FlushInput
  | notify (requests : List DemuxRequest)
  | leave

/-- What a flush reports. -/
inductive FlushEvent
  | visited (pid : ℕ) (etid : ETID)
  | handled (pid : ℕ) (etid : ETID) (table : BinaryTable) (requests : List DemuxRequest)
  | left (pid : ℕ) (keys : List ℕ)

def erasePID (pid : ℕ) (entries : List PIDEntry) : List PIDEntry :=
  entries.filter (·.pid ≠ pid)

namespace Flush

def enter (passed : List PIDEntry) : List PIDEntry → FlushState
  | [] => .finished passed
  | entry :: following =>
    .running
      { passed
        pid := entry.pid
        context := entry.context
        notified := []
        remaining := entry.etids
        following
        resetPending := false
        pidResetPending := false }

variable (flush : Flush)

def entry : PIDEntry :=
  { pid := flush.pid, context := flush.context, etids := flush.notified ++ flush.remaining }

/-- A handler asks the demux to reset, or to reset a PID. -/
def serve : DemuxRequest → Flush
  | .reset => { flush with resetPending := true }
  | .resetPID pid =>
    if pid = flush.pid then { flush with pidResetPending := true }
    else
      { flush with
        passed := erasePID pid flush.passed
        following := erasePID pid flush.following }

def serveAll (requests : List DemuxRequest) : Flush :=
  requests.foldl serve flush

def reported (hasHandler : Bool) (etid : ETID) : Option BinaryTable :=
  ((flush.context.tids etid).notify hasHandler true).2

/-- A table is notified, and the iterator moves. -/
def notify (hasHandler : Bool) (etid : ETID) (rest : List ETID) : Flush :=
  { flush with
    context := flush.context.setTable etid ((flush.context.tids etid).notify hasHandler true).1
    notified := flush.notified ++ [etid]
    remaining := rest }

def afterCallingHandler : List PIDEntry :=
  let erased :=
    if flush.pidResetPending = true then flush.passed ++ flush.following
    else flush.passed ++ flush.entry :: flush.following
  if flush.resetPending = true then [] else erased

/-- The entry of the PID is erased by the delayed resets. -/
def IsErased : Prop :=
  flush.pidResetPending = true ∨ flush.resetPending = true

instance : Decidable flush.IsErased :=
  inferInstanceAs (Decidable (_ ∨ _))

/-- The resets are executed and the iterator moves. -/
def leave : FlushState :=
  if flush.IsErased then .advancedErased flush.afterCallingHandler
  else enter (flush.passed ++ [flush.entry]) flush.following

end Flush

def flushMachine (hasHandler : Bool) : Machine FlushState FlushInput FlushEvent where
  step state input :=
    match state, input with
    | .running flush, .notify requests =>
      match flush.remaining with
      | [] => none
      | etid :: rest =>
        match flush.reported hasHandler etid with
        | none => some (.running (flush.notify hasHandler etid rest), [.visited flush.pid etid])
        | some table =>
          some (.running ((flush.notify hasHandler etid rest).serveAll requests),
            [.visited flush.pid etid, .handled flush.pid etid table requests])
    | .running flush, .leave =>
      match flush.remaining with
      | [] =>
        some (flush.leave, [.left flush.pid (flush.afterCallingHandler.map PIDEntry.pid)])
      | _ :: _ => none
    | _, _ => none

def DemuxContexts.packAndFlushSections (contexts : DemuxContexts) : FlushState :=
  Flush.enter [] contexts.entries

def visitedTables (events : List FlushEvent) : List (ℕ × ETID) :=
  events.filterMap fun event ↦
    match event with
    | .visited pid etid => some (pid, etid)
    | _ => none

def tablesOf (entries : List PIDEntry) : List (ℕ × ETID) :=
  entries.flatMap fun entry ↦ entry.etids.map fun etid ↦ (entry.pid, etid)

/-- The flush is over. -/
def FlushState.IsOver : FlushState → Prop
  | .running _ => False
  | .finished _ => True
  | .advancedErased _ => True

/-- The resets are done when the last handler returns. -/
def FlushEvent.IsDoneAt (earlier later : FlushEvent) : Prop :=
  ∀ tablePID etid table requests pid keys,
    earlier = .handled tablePID etid table requests → later = .left pid keys →
      (.reset ∈ requests → keys = []) ∧ ∀ other, .resetPID other ∈ requests → other ∉ keys

/-- The contexts are visited at most once, no iterator is advanced from an erased entry, and the
resets are executed. -/
structure FlushesSafely (contexts : DemuxContexts) (last : FlushState) (events : List FlushEvent) :
    Prop where
  once : (visitedTables events).Nodup
  known : ∀ table ∈ visitedTables events, table ∈ tablesOf contexts.entries
  notErased : ∀ entries, last ≠ .advancedErased entries
  executed : events.Pairwise FlushEvent.IsDoneAt

/-- A handler does not reset the demux or its PID. -/
def SparesOwn (hasHandler : Bool) : FlushState → FlushInput → Prop
  | .running flush, .notify requests =>
    ∀ etid rest, flush.remaining = etid :: rest → (flush.reported hasHandler etid).isSome = true →
      .reset ∉ requests ∧ .resetPID flush.pid ∉ requests
  | _, _ => True

/-! ### What a handler asks -/

namespace Flush

variable (flush : Flush)

def keys : List ℕ :=
  flush.passed.map PIDEntry.pid ++ flush.pid :: flush.following.map PIDEntry.pid

theorem erasePID_sublist (pid : ℕ) (entries : List PIDEntry) : (erasePID pid entries).Sublist entries :=
  List.filter_sublist

theorem notMem_erasePID (pid : ℕ) (entries : List PIDEntry) :
    pid ∉ (erasePID pid entries).map PIDEntry.pid := by
  intro hmem
  obtain ⟨entry, hentry, hpid⟩ := List.mem_map.mp hmem
  exact of_decide_eq_true (List.mem_filter.mp hentry).2 hpid

/-- What a request leaves. -/
structure Served (flush served : Flush) : Prop where
  pid_eq : served.pid = flush.pid
  remaining_eq : served.remaining = flush.remaining
  passed_sublist : served.passed.Sublist flush.passed
  following_sublist : served.following.Sublist flush.following
  pidReset : flush.pidResetPending = true → served.pidResetPending = true
  reset : flush.resetPending = true → served.resetPending = true

theorem served_serve (request : DemuxRequest) : flush.Served (flush.serve request) := by
  cases request with
  | reset => exact ⟨rfl, rfl, List.Sublist.refl _, List.Sublist.refl _, id, fun _ ↦ rfl⟩
  | resetPID pid =>
    unfold serve
    dsimp only
    split_ifs
    · exact ⟨rfl, rfl, List.Sublist.refl _, List.Sublist.refl _, fun _ ↦ rfl, id⟩
    · exact ⟨rfl, rfl, erasePID_sublist _ _, erasePID_sublist _ _, id, id⟩

theorem Served.trans {flush middle served : Flush} (hfirst : flush.Served middle)
    (hsecond : middle.Served served) : flush.Served served where
  pid_eq := hsecond.pid_eq.trans hfirst.pid_eq
  remaining_eq := hsecond.remaining_eq.trans hfirst.remaining_eq
  passed_sublist := hsecond.passed_sublist.trans hfirst.passed_sublist
  following_sublist := hsecond.following_sublist.trans hfirst.following_sublist
  pidReset := hsecond.pidReset ∘ hfirst.pidReset
  reset := hsecond.reset ∘ hfirst.reset

theorem served_serveAll (requests : List DemuxRequest) : flush.Served (flush.serveAll requests) := by
  induction requests generalizing flush with
  | nil => exact ⟨rfl, rfl, List.Sublist.refl _, List.Sublist.refl _, id, id⟩
  | cons request requests ih => exact (flush.served_serve request).trans (ih _)

/-- A request is done, or it is delayed. -/
def Obeys (request : DemuxRequest) : Prop :=
  match request with
  | .reset => flush.resetPending = true
  | .resetPID pid =>
    if pid = flush.pid then flush.pidResetPending = true
    else pid ∉ flush.passed.map PIDEntry.pid ∧ pid ∉ flush.following.map PIDEntry.pid

theorem Served.obeys {flush served : Flush} (hserved : flush.Served served)
    {request : DemuxRequest} (hobeys : flush.Obeys request) : served.Obeys request := by
  cases request with
  | reset => exact hserved.reset hobeys
  | resetPID pid =>
    unfold Obeys at hobeys ⊢
    dsimp only at hobeys ⊢
    rw [hserved.pid_eq]
    split_ifs at hobeys ⊢ with hown
    · exact hserved.pidReset hobeys
    · exact ⟨fun hmem ↦ hobeys.1 ((hserved.passed_sublist.map _).subset hmem),
        fun hmem ↦ hobeys.2 ((hserved.following_sublist.map _).subset hmem)⟩

theorem obeys_serve (request : DemuxRequest) : (flush.serve request).Obeys request := by
  cases request with
  | reset => exact rfl
  | resetPID pid =>
    unfold serve Obeys
    by_cases hown : pid = flush.pid
    · simp only [if_pos hown]
    · simp only [if_neg hown]
      exact ⟨notMem_erasePID _ _, notMem_erasePID _ _⟩

theorem obeys_serveAll {requests : List DemuxRequest} {request : DemuxRequest}
    (hrequest : request ∈ requests) : (flush.serveAll requests).Obeys request := by
  induction requests generalizing flush with
  | nil => exact absurd hrequest List.not_mem_nil
  | cons first requests ih =>
    rcases List.mem_cons.mp hrequest with rfl | hlater
    · exact ((flush.serve request).served_serveAll requests).obeys (flush.obeys_serve request)
    · exact ih (flush.serve first) hlater

theorem isErased_serveAll (requests : List DemuxRequest) :
    (flush.serveAll requests).IsErased ↔
      flush.IsErased ∨ .reset ∈ requests ∨ .resetPID flush.pid ∈ requests := by
  induction requests generalizing flush with
  | nil => simp [serveAll]
  | cons request requests ih =>
    have hpid := (flush.served_serve request).pid_eq
    show ((flush.serve request).serveAll requests).IsErased ↔ _
    rw [ih, hpid, List.mem_cons, List.mem_cons]
    cases request with
    | reset => simp [serve, IsErased]
    | resetPID pid =>
      unfold serve IsErased
      by_cases hown : pid = flush.pid
      · simp [hown]
      · simp [hown, Ne.symm hown]

end Flush

/-! ### One operation -/

/-- What an operation of a flush is. -/
theorem flushMachine_step_cases {hasHandler : Bool} {state next : FlushState} {input : FlushInput}
    {events : List FlushEvent}
    (hstep : (flushMachine hasHandler).step state input = some (next, events)) :
    (∃ flush requests etid rest, state = .running flush ∧ input = .notify requests ∧
        flush.remaining = etid :: rest ∧ flush.reported hasHandler etid = none ∧
        next = .running (flush.notify hasHandler etid rest) ∧
        events = [.visited flush.pid etid]) ∨
      (∃ flush requests etid rest table, state = .running flush ∧ input = .notify requests ∧
        flush.remaining = etid :: rest ∧ flush.reported hasHandler etid = some table ∧
        next = .running ((flush.notify hasHandler etid rest).serveAll requests) ∧
        events = [.visited flush.pid etid, .handled flush.pid etid table requests]) ∨
      (∃ flush, state = .running flush ∧ input = .leave ∧ flush.remaining = [] ∧
        next = flush.leave ∧
        events = [.left flush.pid (flush.afterCallingHandler.map PIDEntry.pid)]) := by
  cases state with
  | finished entries => cases input <;> cases hstep
  | advancedErased entries => cases input <;> cases hstep
  | running flush =>
    unfold flushMachine at hstep
    cases hremaining : flush.remaining with
    | nil =>
      cases input with
      | notify requests =>
        simp only [hremaining, reduceCtorEq] at hstep
      | leave =>
        simp only [hremaining, Option.some.injEq, Prod.mk.injEq] at hstep
        exact Or.inr (Or.inr ⟨flush, rfl, rfl, hremaining, hstep.1.symm, hstep.2.symm⟩)
    | cons etid rest =>
      cases input with
      | leave =>
        simp only [hremaining, reduceCtorEq] at hstep
      | notify requests =>
        cases hreported : flush.reported hasHandler etid with
        | none =>
          simp only [hremaining, hreported, Option.some.injEq, Prod.mk.injEq] at hstep
          exact Or.inl ⟨flush, requests, etid, rest, rfl, rfl, hremaining, hreported,
            hstep.1.symm, hstep.2.symm⟩
        | some table =>
          simp only [hremaining, hreported, Option.some.injEq, Prod.mk.injEq] at hstep
          exact Or.inr (Or.inl ⟨flush, requests, etid, rest, table, rfl, rfl, hremaining,
            hreported, hstep.1.symm, hstep.2.symm⟩)

namespace FlushState

def pending : FlushState → List (ℕ × ETID)
  | .running flush =>
    (flush.remaining.map fun etid ↦ (flush.pid, etid)) ++ tablesOf flush.following
  | .finished _ => []
  | .advancedErased _ => []

def keys : FlushState → List ℕ
  | .running flush => flush.keys
  | .finished entries => entries.map PIDEntry.pid
  | .advancedErased entries => entries.map PIDEntry.pid

end FlushState

/-- A request is done in the entries. -/
def IsDoneIn (entries : List PIDEntry) : DemuxRequest → Prop
  | .reset => entries = []
  | .resetPID pid => pid ∉ entries.map PIDEntry.pid

/-- A request is done, or it is delayed. -/
def FlushState.Obeys : FlushState → DemuxRequest → Prop
  | .running flush, request => flush.Obeys request
  | .finished entries, request => IsDoneIn entries request
  | .advancedErased entries, request => IsDoneIn entries request

namespace Flush

theorem pending_enter (passed entries : List PIDEntry) :
    (enter passed entries).pending = tablesOf entries := by
  cases entries with
  | nil => rfl
  | cons entry following => rfl

theorem keys_enter (passed entries : List PIDEntry) :
    (enter passed entries).keys = passed.map PIDEntry.pid ++ entries.map PIDEntry.pid := by
  cases entries with
  | nil => exact (List.append_nil _).symm
  | cons entry following => rfl

theorem obeys_enter {passed entries : List PIDEntry} {pid : ℕ}
    (hpassed : pid ∉ passed.map PIDEntry.pid) (hentries : pid ∉ entries.map PIDEntry.pid) :
    (enter passed entries).Obeys (.resetPID pid) := by
  cases entries with
  | nil => exact hpassed
  | cons entry following =>
    rw [List.map_cons, List.mem_cons, not_or] at hentries
    show if pid = entry.pid then _ else _
    rw [if_neg hentries.1]
    exact ⟨hpassed, hentries.2⟩

variable {flush : Flush}

theorem afterCallingHandler_sublist :
    flush.afterCallingHandler.Sublist (flush.passed ++ flush.entry :: flush.following) := by
  unfold afterCallingHandler
  dsimp only
  split_ifs
  · exact List.nil_sublist _
  · exact (List.Sublist.refl _).append (List.sublist_cons_self _ _)
  · exact List.Sublist.refl _

theorem map_entries (flush : Flush) :
    (flush.passed ++ flush.entry :: flush.following).map PIDEntry.pid = flush.keys := by
  rw [List.map_append, List.map_cons]
  rfl

theorem isDoneIn_afterCallingHandler (hkeys : flush.keys.Nodup) {request : DemuxRequest}
    (hobeys : flush.Obeys request) : IsDoneIn flush.afterCallingHandler request := by
  cases request with
  | reset =>
    have hreset : flush.resetPending = true := hobeys
    exact if_pos hreset
  | resetPID pid =>
    unfold Obeys at hobeys
    dsimp only at hobeys
    unfold IsDoneIn
    dsimp only
    split_ifs at hobeys with hown
    · unfold keys at hkeys
      rw [List.perm_middle.nodup_iff, List.nodup_cons, ← List.map_append] at hkeys
      unfold afterCallingHandler
      dsimp only
      rw [if_pos hobeys, hown]
      split_ifs
      · exact List.not_mem_nil
      · exact hkeys.1
    · intro hmem
      have hkey := (afterCallingHandler_sublist.map PIDEntry.pid).subset hmem
      rw [map_entries] at hkey
      rcases List.mem_append.mp hkey with hpassed | hother
      · exact hobeys.1 hpassed
      · rcases List.mem_cons.mp hother with hsame | hfollowing
        · exact hown hsame
        · exact hobeys.2 hfollowing

theorem obeys_leave (hkeys : flush.keys.Nodup) {request : DemuxRequest}
    (hobeys : flush.Obeys request) : flush.leave.Obeys request := by
  have hdone := isDoneIn_afterCallingHandler hkeys hobeys
  unfold leave
  by_cases herased : flush.IsErased
  · rw [if_pos herased]
    exact hdone
  · rw [if_neg herased]
    obtain ⟨hpid, hreset⟩ := not_or.mp herased
    cases request with
    | reset => exact absurd hobeys hreset
    | resetPID pid =>
      unfold Obeys at hobeys
      dsimp only at hobeys
      split_ifs at hobeys with hown
      · exact absurd hobeys hpid
      · refine obeys_enter ?_ hobeys.2
        rw [List.map_append, List.mem_append, not_or]
        exact ⟨hobeys.1, fun hmem ↦ hown (List.mem_singleton.mp hmem)⟩

theorem keys_leave_sublist : flush.leave.keys.Sublist flush.keys := by
  unfold leave
  split_ifs
  · rw [← map_entries]
    exact afterCallingHandler_sublist.map _
  · rw [keys_enter, List.map_append, List.append_assoc]
    exact List.Sublist.refl _

theorem pending_leave_sublist : flush.leave.pending.Sublist (tablesOf flush.following) := by
  unfold leave
  split_ifs
  · exact List.nil_sublist _
  · rw [pending_enter]

theorem Served.keys_sublist {flush served : Flush} (hserved : flush.Served served) :
    served.keys.Sublist flush.keys := by
  unfold keys
  rw [hserved.pid_eq]
  exact (hserved.passed_sublist.map _).append ((hserved.following_sublist.map _).cons_cons _)

end Flush

/-! ### The whole flush -/

/-- Nothing was visited twice, and requests are done. -/
structure Flushing (contexts : DemuxContexts) (state : FlushState) (events : List FlushEvent) :
    Prop where
  tables : (visitedTables events ++ state.pending).Sublist (tablesOf contexts.entries)
  keys : state.keys.Sublist (contexts.entries.map PIDEntry.pid)
  obeyed : ∀ pid etid table requests, .handled pid etid table requests ∈ events →
    ∀ request ∈ requests, state.Obeys request
  executed : events.Pairwise FlushEvent.IsDoneAt

namespace DemuxContexts

variable (contexts : DemuxContexts)

theorem nodup_keys : (contexts.entries.map PIDEntry.pid).Nodup :=
  List.pairwise_map.mpr (contexts.sorted.imp fun hlt ↦ Nat.ne_of_lt hlt)

theorem nodup_tables : (tablesOf contexts.entries).Nodup := by
  refine List.nodup_flatMap.mpr ⟨fun entry hentry ↦ ?_, contexts.sorted.imp fun hlt ↦ ?_⟩
  · exact (contexts.nodup entry hentry).map fun _ _ hsame ↦ (Prod.mk.inj hsame).2
  · intro table hfirst hsecond
    obtain ⟨etid, -, rfl⟩ := List.mem_map.mp hfirst
    obtain ⟨other, -, hother⟩ := List.mem_map.mp hsecond
    exact Nat.ne_of_lt hlt (Prod.mk.inj hother).1.symm

theorem flushing_packAndFlushSections : Flushing contexts contexts.packAndFlushSections [] where
  tables := by
    show (FlushState.pending (Flush.enter [] contexts.entries)).Sublist _
    rw [Flush.pending_enter]
  keys := by
    show (FlushState.keys (Flush.enter [] contexts.entries)).Sublist _
    rw [Flush.keys_enter]
    exact List.Sublist.refl _
  obeyed := fun _ _ _ _ hmem ↦ absurd hmem List.not_mem_nil
  executed := List.Pairwise.nil

end DemuxContexts

variable {events : List FlushEvent} {hasHandler : Bool} {state : FlushState}

theorem pairwise_append_handled {more : List FlushEvent} (hevents : events.Pairwise FlushEvent.IsDoneAt)
    (hmore : ∀ event ∈ more, ∀ pid keys, event ≠ .left pid keys) :
    (events ++ more).Pairwise FlushEvent.IsDoneAt := by
  have hdone : ∀ earlier, ∀ later ∈ more, FlushEvent.IsDoneAt earlier later :=
    fun _ later hlater _ _ _ _ pid keys _ hleft ↦ absurd hleft (hmore later hlater pid keys)
  rw [List.pairwise_append]
  exact ⟨hevents, List.pairwise_of_forall_mem_list fun earlier _ later ↦ hdone earlier later,
    fun earlier _ ↦ hdone earlier⟩

theorem Flushing.step {contexts : DemuxContexts} {next : FlushState} {input : FlushInput}
    {before : List FlushEvent} (hflushing : Flushing contexts state before)
    (hstep : (flushMachine hasHandler).step state input = some (next, events)) :
    Flushing contexts next (before ++ events) := by
  obtain ⟨htables, hkeys, hobeyed, hexecuted⟩ := hflushing
  have hvisited : visitedTables (before ++ events) =
      visitedTables before ++ visitedTables events := List.filterMap_append
  rcases flushMachine_step_cases hstep with
    ⟨flush, requests, etid, rest, rfl, rfl, hremaining, -, rfl, rfl⟩ |
      ⟨flush, requests, etid, rest, table, rfl, rfl, hremaining, -, rfl, rfl⟩ |
        ⟨flush, rfl, rfl, hremaining, rfl, rfl⟩
  · -- a table which is not reported
    refine ⟨?_, hkeys, ?_, pairwise_append_handled hexecuted ?_⟩
    · unfold FlushState.pending at htables
      dsimp only at htables
      rw [hremaining] at htables
      rw [hvisited, List.append_assoc]
      exact htables
    · intro pid other table asked hmem
      rw [List.mem_append, List.mem_singleton] at hmem
      rcases hmem with hmem | hmem
      · exact hobeyed pid other table asked hmem
      · cases hmem
    · intro event hevent pid keys hleft
      rw [List.mem_singleton, hleft] at hevent
      cases hevent
  · -- a table which the handler gets
    have hserved := (flush.notify hasHandler etid rest).served_serveAll requests
    refine ⟨?_, hserved.keys_sublist.trans hkeys, ?_, pairwise_append_handled hexecuted ?_⟩
    · unfold FlushState.pending at htables
      dsimp only at htables
      rw [hremaining, List.map_cons, List.cons_append] at htables
      rw [hvisited, List.append_assoc]
      have hpending : (((flush.notify hasHandler etid rest).serveAll requests).remaining.map
            (fun other ↦ (((flush.notify hasHandler etid rest).serveAll requests).pid, other)) ++
          tablesOf ((flush.notify hasHandler etid rest).serveAll requests).following).Sublist
            (rest.map (fun other ↦ (flush.pid, other)) ++ tablesOf flush.following) := by
        rw [hserved.pid_eq, hserved.remaining_eq]
        exact (List.Sublist.refl _).append (hserved.following_sublist.flatMap _)
      exact ((List.Sublist.refl _).append (hpending.cons_cons (flush.pid, etid))).trans htables
    · intro pid other reported asked hmem request hrequest
      rw [List.mem_append, List.mem_cons, List.mem_singleton] at hmem
      rcases hmem with hmem | hmem | hmem
      · exact hserved.obeys (hobeyed pid other reported asked hmem request hrequest)
      · cases hmem
      · cases hmem
        exact (flush.notify hasHandler etid rest).obeys_serveAll hrequest
    · intro event hevent pid keys hleft
      rw [List.mem_cons, List.mem_singleton, hleft] at hevent
      rcases hevent with hevent | hevent <;> cases hevent
  · -- the last handler of a PID has returned
    have hnodup : flush.keys.Nodup := contexts.nodup_keys.sublist hkeys
    refine ⟨?_, Flush.keys_leave_sublist.trans hkeys, ?_, ?_⟩
    · unfold FlushState.pending at htables
      dsimp only at htables
      rw [hremaining] at htables
      rw [hvisited, List.append_assoc]
      exact List.Sublist.trans
        ((List.Sublist.refl _).append Flush.pending_leave_sublist) htables
    · intro pid etid table requests hmem request hrequest
      rw [List.mem_append, List.mem_singleton] at hmem
      rcases hmem with hmem | hmem
      · exact Flush.obeys_leave hnodup (hobeyed pid etid table requests hmem request hrequest)
      · cases hmem
    · rw [List.pairwise_append]
      refine ⟨hexecuted, List.pairwise_singleton _ _, fun earlier hearlier later hlater ↦ ?_⟩
      rintro pid etid table requests left keys rfl hleft
      rw [List.mem_singleton, hleft, FlushEvent.left.injEq] at hlater
      obtain ⟨-, rfl⟩ := hlater
      have hdone := fun request hrequest ↦ Flush.isDoneIn_afterCallingHandler hnodup
        (hobeyed pid etid table requests hearlier request hrequest)
      exact ⟨fun hreset ↦ List.map_eq_nil_iff.mpr (hdone .reset hreset),
        fun other hother ↦ hdone (.resetPID other) hother⟩

/-- Whether an entry will be erased. -/
theorem SparesOwn.isErased_iff {flush : Flush} {requests : List DemuxRequest} {etid : ETID}
    {rest : List ETID} {table : BinaryTable} (hremaining : flush.remaining = etid :: rest)
    (hreported : flush.reported hasHandler etid = some table) :
    ¬((flush.notify hasHandler etid rest).serveAll requests).IsErased ↔
      ¬flush.IsErased ∧ SparesOwn hasHandler (.running flush) (.notify requests) := by
  rw [Flush.isErased_serveAll, not_or, not_or]
  refine and_congr Iff.rfl ⟨fun hspares other later hother _ ↦ ?_, fun hspares ↦ ?_⟩
  · exact hspares
  · exact hspares etid rest hremaining (by rw [hreported]; rfl)

/-- The entry of the PID is to be erased. -/
def FlushState.IsErased : FlushState → Prop
  | .running flush => flush.IsErased
  | .finished _ => False
  | .advancedErased _ => True

theorem not_isErased_step_iff {next : FlushState} {input : FlushInput}
    (hstep : (flushMachine hasHandler).step state input = some (next, events)) :
    ¬next.IsErased ↔ ¬state.IsErased ∧ SparesOwn hasHandler state input := by
  rcases flushMachine_step_cases hstep with
    ⟨flush, requests, etid, rest, rfl, rfl, hremaining, hreported, rfl, -⟩ |
      ⟨flush, requests, etid, rest, table, rfl, rfl, hremaining, hreported, rfl, -⟩ |
        ⟨flush, rfl, rfl, hremaining, rfl, -⟩
  · refine ⟨fun hnot ↦ ⟨hnot, fun other later hother hsome ↦ ?_⟩, And.left⟩
    rw [hremaining, List.cons.injEq] at hother
    rw [← hother.1, hreported] at hsome
    exact absurd hsome Bool.false_ne_true
  · exact SparesOwn.isErased_iff hremaining hreported
  · show ¬flush.leave.IsErased ↔ ¬flush.IsErased ∧ True
    rw [and_true]
    unfold Flush.leave
    by_cases herased : flush.IsErased
    · rw [if_pos herased]
      exact ⟨fun hnot ↦ absurd trivial hnot, fun hnot ↦ absurd herased hnot⟩
    · rw [if_neg herased]
      refine ⟨fun _ ↦ herased, fun _ ↦ ?_⟩
      cases flush.following with
      | nil => exact not_false
      | cons entry following =>
        rintro (hfalse | hfalse) <;> exact Bool.false_ne_true hfalse

/-- No entry is erased when each handler spares its PID. -/
theorem not_isErased_run_iff {last : FlushState} {inputs : List FlushInput}
    (hrun : (flushMachine hasHandler).run state inputs = some (last, events)) :
    ¬last.IsErased ↔
      ¬state.IsErased ∧ (flushMachine hasHandler).Meets (SparesOwn hasHandler) state inputs := by
  induction inputs generalizing state events with
  | nil =>
    obtain ⟨rfl, -⟩ := Prod.mk.inj (Option.some.inj hrun)
    exact (and_iff_left trivial).symm
  | cons input inputs ih =>
    obtain ⟨next, first, later, hstep, hlater, -⟩ :=
      ((flushMachine hasHandler).run_cons_eq_some).mp hrun
    rw [ih hlater, not_isErased_step_iff hstep, and_assoc]
    refine and_congr Iff.rfl (and_congr Iff.rfl
      ⟨fun hmeets other outputs hother ↦ ?_, fun hmeets ↦ ?_⟩)
    · rw [hstep, Option.some.injEq, Prod.mk.injEq] at hother
      exact hother.1 ▸ hmeets
    · exact hmeets next first hstep

theorem FlushState.IsOver.not_isErased_iff (hover : state.IsOver) :
    ¬state.IsErased ↔ ∀ entries, state ≠ .advancedErased entries := by
  cases state with
  | running flush => exact absurd hover not_false
  | finished entries => exact ⟨fun _ _ hsame ↦ (by cases hsame), fun _ ↦ not_false⟩
  | advancedErased entries =>
    exact ⟨fun hnot ↦ absurd trivial hnot, fun hnot ↦ absurd rfl (hnot entries)⟩

theorem sparesOwn_leave (hasHandler : Bool) (state : FlushState) :
    SparesOwn hasHandler state .leave := by
  cases state <;> exact trivial

/-- Assumes: a whole flush. It is safe exactly when no handler resets the demux or the PID of its
table. -/
theorem DemuxContexts.flushesSafely_iff (contexts : DemuxContexts) (hasHandler : Bool)
    {inputs : List FlushInput} {last : FlushState} {events : List FlushEvent}
    (hrun : (flushMachine hasHandler).run contexts.packAndFlushSections inputs = some (last, events))
    (hover : last.IsOver) :
    FlushesSafely contexts last events ↔
      (flushMachine hasHandler).Meets (SparesOwn hasHandler) contexts.packAndFlushSections inputs := by
  have hflushing : Flushing contexts last ([] ++ events) :=
    @Machine.run_history _ _ _ (flushMachine hasHandler) _ _ _ _ _ (Flushing contexts)
      (fun _ _ _ _ _ hbefore hstep ↦ hbefore.step hstep) contexts.flushing_packAndFlushSections hrun
  rw [List.nil_append] at hflushing
  have hvisited := (List.sublist_append_left _ _).trans hflushing.tables
  have hstart : ¬contexts.packAndFlushSections.IsErased := by
    unfold packAndFlushSections
    cases contexts.entries with
    | nil => exact not_false
    | cons entry following =>
      rintro (hfalse | hfalse) <;> exact Bool.false_ne_true hfalse
  have hmeets := not_isErased_run_iff hrun
  rw [and_iff_right hstart, hover.not_isErased_iff] at hmeets
  exact ⟨fun hsafe ↦ hmeets.mp hsafe.notErased, fun hspares ↦
    { once := contexts.nodup_tables.sublist hvisited
      known := fun table htable ↦ hvisited.subset htable
      notErased := hmeets.mpr hspares
      executed := hflushing.executed }⟩

def partialETID : ETID := ⟨true, 0x42, 1⟩

/-- A table which has the first of its two sections. -/
def partialContexts : DemuxContexts where
  entries :=
    [{ pid := 0x11
       context := PIDContext.new.setTable partialETID
         ((ETIDContext.init 0 1).save 0 (BinaryTable.emptySection 0 1))
       etids := [partialETID] }]
  sorted := List.pairwise_singleton _ _
  nodup := fun _ hentry ↦ List.mem_singleton.mp hentry ▸ List.nodup_singleton _

def partialFlush (requests : List DemuxRequest) : Option (FlushState × List FlushEvent) :=
  (flushMachine true).run partialContexts.packAndFlushSections [.notify requests, .leave]

/-- The flush is safe with a handler that resets another PID. -/
theorem flushesSafely_other_reset :
    ∃ last events, partialFlush [.resetPID 0x200] = some (last, events) ∧
      FlushesSafely partialContexts last events := by
  obtain ⟨last, events, hrun, hover⟩ :
      ∃ last events, partialFlush [.resetPID 0x200] = some (last, events) ∧ last.IsOver :=
    ⟨_, _, rfl, trivial⟩
  exact ⟨last, events, hrun, (partialContexts.flushesSafely_iff true hrun hover).mpr
    ⟨fun _ _ _ _ ↦ ⟨by decide, by decide⟩,
      fun next _ _ ↦ ⟨sparesOwn_leave true next, fun _ _ _ ↦ trivial⟩⟩⟩

/-- The handler resets the PID of its table. -/
theorem own_reset_not_flushesSafely :
    ∃ last events, partialFlush [.resetPID 0x11] = some (last, events) ∧ last.IsOver ∧
      ¬FlushesSafely partialContexts last events := by
  have hreported : (((ETIDContext.init 0 1).save 0
      (BinaryTable.emptySection 0 1)).notify true true).2.isSome = true := by decide +kernel
  obtain ⟨last, events, hrun, hover⟩ :
      ∃ last events, partialFlush [.resetPID 0x11] = some (last, events) ∧ last.IsOver :=
    ⟨_, _, rfl, trivial⟩
  refine ⟨last, events, hrun, hover, fun hsafe ↦ ?_⟩
  have hmeets := ((not_isErased_run_iff hrun).mp (hover.not_isErased_iff.mpr hsafe.notErased)).2
  exact (hmeets.1 partialETID [] rfl hreported).2 List.mem_cons_self

end TSDuck
