import SharedViews.Proofs.Engine.Shell
import SharedViews.Proofs.Render.Privacy

/-! First loads.

A first load registers its context and starts its view. When the view has ended, what it
left is returned as it is if it is an error or a document of its own; else it is put into
the shell, which may have to be read. Around these moments anything may happen, other first
loads among it: `FirstLoad` is one of them with the acts before it, while its view runs, and
while it waits for the shell. All that happens is a list of acts once more (`finished_eq`), so
the reads of a shell file can be told in their order. A task of a timeline takes the same
steps (`launch_firstLoad`, `recorded_endView`), and `first_load_agrees` says what a first load
does to the engine and what it gives. -/
namespace SharedViews
open Std

/-- A first load whose view ends, and what happens around it. -/
structure FirstLoad where
  call : Nat
  scope : Scope
  context : LiveContext
  outcome : Except ViewError String
  seconds : Float
  before : List Act
  /-- What happens while the view runs, its own operations among it. -/
  meanwhile : List Act
  /-- What happens between the end of the view and the look at the shell. -/
  reading : List Act

namespace FirstLoad
variable (l : FirstLoad) (e : Engine)

def request : Request := Engine.requestOf l.scope .initial l.context

/-! The moments of a first load, from the engine that it is to come to. -/

def begun : Engine := (e.after l.before).beginFirstLoad l.call l.scope l.context

def viewed : Engine := (l.begun e).after l.meanwhile

def ended : Engine := (l.viewed e).onTraffic (.viewEnds l.call l.outcome l.seconds)

def looking : Engine := (l.ended e).after l.reading

def finished : Engine :=
  ((l.looking e).finishLoading l.context ((l.ended e).loading l.outcome)).2

/-- What the first load gives. -/
def result : Except RenderError String :=
  ((l.looking e).finishLoading l.context ((l.ended e).loading l.outcome)).1

/-! The same as acts. -/

def actsToEnd : List Act :=
  l.before ++ ([.operation (.register l.context), .render (.arrive l.call l.request 0.0)] ++
    (l.meanwhile ++ [.render (.viewEnds l.call l.outcome l.seconds)]))

/-- The look at the shell, if there is a fragment to be put into it. -/
def look : List Act :=
  match l.outcome with
  | .ok content => if isWholeDocument content then [] else [.recallShell]
  | .error _ => []

def acts : List Act := l.actsToEnd ++ (l.reading ++ l.look)

/-- The call is new, and no one else speaks for it. -/
structure Proper : Prop where
  new : (e.after l.before).traffic.calls[l.call]? = none
  own : ∀ event ∈ l.meanwhile.flatMap Act.events, Traffic.caller? event ≠ some l.call

/-- The timeline has come to the end of the first load, and has its result. -/
structure Recorded (t : Timeline) : Prop where
  engine : t.engine = l.finished e
  result : t.results[l.call]? = some ((l.result e).mapError .engine)

end FirstLoad

namespace Engine

/-- Presence and documents are as they were, and so are renders to everybody but the call. -/
structure Unmoved (call : Nat) (e f : Engine) : Prop where
  presence : f.presence = e.presence
  documents : f.documents = e.documents
  renders : Traffic.Undisturbed f.traffic e.traffic call

theorem Unmoved.refl (call : Nat) (e : Engine) : Unmoved call e e :=
  ⟨rfl, rfl, Traffic.undisturbed_of_forget rfl⟩

theorem unmoved_recallShell (e : Engine) (call : Nat) : Unmoved call e (e.step .recallShell) := by
  obtain ⟨shell, hshell⟩ := e.recallShell_eq
  show Unmoved call e e.recallShell.2
  rw [hshell]
  exact ⟨rfl, rfl, Traffic.undisturbed_of_forget rfl⟩

end Engine

namespace Timeline

/-- A task whose view has been started runs on, or sleeps first. -/
theorem proceed_of_viewing {t : Timeline} {task : Task} {call : Nat} {request : Request}
    (htask : t.tasks[call]? = some task) (hat : t.engine.traffic.At call request .viewing) :
    ∃ noted : Timeline, noted.engine = t.engine ∧ noted.tasks = t.tasks ∧
      t.proceed call = match task.view.delay with
        | some delay => {noted with sleeping := noted.sleeping.insert call (t.now + delay)}
        | none => noted.endView call := by
  have hphase : t.engine.traffic.phase? call = some .viewing := by
    unfold Traffic.At at hat
    rw [Traffic.phase?, hat]
    rfl
  unfold Timeline.proceed
  rw [htask, hphase]
  dsimp only
  by_cases hannounced : task.view.announced = true
  · rw [if_pos hannounced]
    exact ⟨t.note task.name .viewStarted, rfl, rfl, rfl⟩
  · rw [if_neg hannounced]
    exact ⟨t, rfl, rfl, rfl⟩

end Timeline

namespace FirstLoad
variable {e : Engine} {l : FirstLoad}

/-! ### While the view runs -/

theorem not_shared (l : FirstLoad) : l.request.isShared = false :=
  l.request.not_isShared_iff.mpr (.inr (.inl rfl))

theorem traffic_begun (h : l.Proper e) : (l.begun e).traffic =
    (e.after l.before).traffic.setPhase l.call l.request .viewing :=
  Traffic.step_arrive_of_private h.new l.not_shared 0.0

theorem at_begun (h : l.Proper e) : (l.begun e).traffic.At l.call l.request .viewing := by
  rw [traffic_begun h]
  exact Traffic.at_setPhase_self _ _ _ _

theorem at_viewed (h : l.Proper e) : (l.viewed e).traffic.At l.call l.request .viewing := by
  rw [viewed, Engine.traffic_after]
  exact (at_begun h).run h.own

theorem traffic_ended (h : l.Proper e) : (l.ended e).traffic =
    (l.viewed e).traffic.returns l.call l.request l.outcome l.seconds :=
  Traffic.step_viewEnds_of_viewing (at_viewed h) l.outcome l.seconds

theorem result?_ended (h : l.Proper e) :
    (l.ended e).traffic.result? l.call = some l.outcome := by
  have hat : (l.ended e).traffic.At l.call l.request (.returned l.outcome) := by
    rw [traffic_ended h]
    exact Traffic.at_setPhase_self _ _ _ _
  unfold Traffic.At at hat
  simp [Traffic.result?, Traffic.phase?, hat]

/-! ### What the first load does itself -/

theorem unmoved_ended (h : l.Proper e) : Engine.Unmoved l.call (l.viewed e) (l.ended e) := by
  refine ⟨rfl, rfl, Traffic.undisturbed_of_forget ?_⟩
  rw [traffic_ended h, Traffic.forget_returns_self]

theorem unmoved_cancel (h : l.Proper e) :
    Engine.Unmoved l.call (l.viewed e) ((l.viewed e).onTraffic (.cancel l.call)) := by
  refine ⟨rfl, rfl, Traffic.undisturbed_of_forget ?_⟩
  show ((l.viewed e).traffic.step _).forget l.call = _
  rw [Traffic.step_cancel_of_viewing (at_viewed h), Traffic.forget_setPhase_self]

theorem ended_eq (e : Engine) (l : FirstLoad) : l.ended e = e.after l.actsToEnd := by
  rw [actsToEnd, Engine.after_append, Engine.after_append, Engine.after_append]
  rfl

theorem looking_eq (e : Engine) (l : FirstLoad) :
    l.looking e = e.after (l.actsToEnd ++ l.reading) := by
  rw [looking, ended_eq, Engine.after_append]

/-- The shell stays what it is. -/
theorem shell_ended (e : Engine) (l : FirstLoad) :
    (l.ended e).documents.shell = e.documents.shell := by
  rw [ended_eq]
  exact e.documentsShell_after l.actsToEnd

theorem shell_looking (e : Engine) (l : FirstLoad) :
    (l.looking e).documents.shell = e.documents.shell := by
  rw [looking_eq]
  exact e.documentsShell_after _

theorem finished_of_error {cause : ViewError} (h : l.outcome = .error cause) (e : Engine) :
    l.finished e = l.looking e := by
  rw [finished, h]
  rfl

section Content
variable {content : String} (houtcome : l.outcome = .ok content)
include houtcome

theorem loading_of_whole (hwhole : isWholeDocument content = true) (f : Engine) :
    f.loading l.outcome = .done (.ok content) := by
  rw [houtcome, Engine.loading, if_pos hwhole]

theorem loading_of_fragment (hfragment : isWholeDocument content = false) (f : Engine) :
    f.loading l.outcome = .fragment content f.documents := by
  rw [houtcome, Engine.loading, if_neg (Bool.not_eq_true _ ▸ hfragment)]

theorem finished_of_whole (hwhole : isWholeDocument content = true) (e : Engine) :
    l.finished e = l.looking e := by
  rw [finished, loading_of_whole houtcome hwhole]
  rfl

theorem finished_of_fragment (hfragment : isWholeDocument content = false) (e : Engine) :
    l.finished e = (l.looking e).step .recallShell := by
  rw [finished, loading_of_fragment houtcome hfragment]
  exact Engine.finishLoading_fragment ((shell_ended e l).trans (shell_looking e l).symm) _ _

end Content

/-- The end of a first load is a look at the shell or nothing. -/
theorem finished_eq_look (e : Engine) (l : FirstLoad) :
    l.finished e = (l.looking e).after l.look := by
  unfold look
  split
  next content houtcome =>
    split
    next hwhole => exact finished_of_whole houtcome hwhole e
    next hfragment => exact finished_of_fragment houtcome (Bool.not_eq_true _ ▸ hfragment) e
  next cause houtcome => exact finished_of_error houtcome e

theorem finished_eq (e : Engine) (l : FirstLoad) : l.finished e = e.after l.acts := by
  rw [finished_eq_look, looking_eq, ← Engine.after_append, acts, List.append_assoc]

theorem unmoved_finished (e : Engine) (l : FirstLoad) :
    Engine.Unmoved l.call (l.looking e) (l.finished e) := by
  rw [finished_eq_look]
  unfold look
  split
  · split
    · exact .refl _ _
    · exact Engine.unmoved_recallShell _ _
  · exact .refl _ _

/-! ### What the first load gives -/

theorem result_of_error {cause : ViewError} (h : l.outcome = .error cause) (e : Engine) :
    l.result e = .error (.view cause) := by
  rw [result, h]
  rfl

section Content
variable {content : String} (houtcome : l.outcome = .ok content)
include houtcome

theorem result_of_whole (hwhole : isWholeDocument content = true) (e : Engine) :
    l.result e = .ok content := by
  rw [result, loading_of_whole houtcome hwhole]
  rfl

variable (hfragment : isWholeDocument content = false)
include hfragment

theorem result_of_shell {shell : String}
    (hshell : ((l.looking e).shellText e.documents.shell).1 = .ok shell) : l.result e =
      .ok ((l.ended e).documents.wrap shell content l.context l.context.id) := by
  rw [← shell_ended e l] at hshell
  rw [result, loading_of_fragment houtcome hfragment]
  simp only [Engine.finishLoading, hshell]

theorem result_of_failure {cause : ShellError}
    (hshell : ((l.looking e).shellText e.documents.shell).1 = .error cause) :
    l.result e = .error (.document cause) := by
  rw [← shell_ended e l] at hshell
  rw [result, loading_of_fragment houtcome hfragment]
  simp only [Engine.finishLoading, hshell]

theorem result_of_inline {shell : String} (hinline : e.documents.shell = .inline shell) :
    l.result e = .ok ((l.ended e).documents.wrap shell content l.context l.context.id) :=
  result_of_shell houtcome hfragment (by rw [hinline]; rfl)

/-- With an inline shell the first load builds the document. -/
theorem result_eq_build {shell : String} (hinline : e.documents.shell = .inline shell)
    (files : Files) : l.result e =
      ((l.ended e).documents.build files content l.context l.context.id).mapError .document := by
  have hended : (l.ended e).documents.shell = .inline shell := (shell_ended e l).trans hinline
  rw [result_of_inline houtcome hfragment hinline]
  simp [Assembler.build, Assembler.readShell, hfragment, hended, Except.map, Except.mapError]

/-- After the look, what the first successful read gave is remembered. -/
theorem shell_looked (hstart : e.shell = none) {path : String}
    (hpath : e.documents.shell = .path path) :
    ((l.looking e).shellText e.documents.shell).2.shell = Engine.firstRead? path e l.acts := by
  have hlook : ((l.looking e).shellText e.documents.shell).2 = l.finished e := by
    rw [finished_of_fragment houtcome hfragment, ← shell_looking e l]
    rfl
  rw [hlook, finished_eq, Engine.shell_after hpath, hstart, Option.none_or]

theorem result_of_read (hstart : e.shell = none) {path shell : String}
    (hpath : e.documents.shell = .path path)
    (hread : Engine.firstRead? path e l.acts = some shell) : l.result e =
      .ok ((l.ended e).documents.wrap shell content l.context l.context.id) := by
  have hlooked := shell_looked houtcome hfragment hstart hpath
  rcases (l.looking e).shellText_path path with ⟨text, hsome, hgives⟩ | ⟨hnone, -⟩
  · rw [hpath, hsome, hread, Option.some.injEq] at hlooked
    exact result_of_shell houtcome hfragment (by rw [hpath, hgives, hlooked])
  · rw [hpath, hnone, hread] at hlooked
    cases hlooked

theorem result_of_no_read (hstart : e.shell = none) {path : String}
    (hpath : e.documents.shell = .path path)
    (hread : Engine.firstRead? path e l.acts = none) :
    ∃ cause, (l.looking e).files path = .error cause ∧
      l.result e = .error (.document (.shell path cause)) := by
  have hlooked := shell_looked houtcome hfragment hstart hpath
  rcases (l.looking e).shellText_path path with ⟨text, hsome, -⟩ | ⟨-, cause, hfile, hgives⟩
  · rw [hpath, hsome, hread] at hlooked
    cases hlooked
  · exact ⟨cause, hfile, result_of_failure houtcome hfragment (by rw [hpath, hgives])⟩

end Content

/-! ### On a timeline -/

/-- A first load that looks at the shell as soon as its view has ended is what the engine
does at once. -/
theorem finishFirstLoad_eq (h : l.reading = []) (e : Engine) :
    (l.ended e).finishFirstLoad l.context l.outcome = (l.result e, l.finished e) := by
  have hlooking : l.looking e = l.ended e := by rw [looking, h]; rfl
  rw [result, finished, hlooking]
  rfl

theorem recorded_endView (hreading : l.reading = []) (h : l.Proper e) {t : Timeline} {task : Task}
    (htask : t.tasks[l.call]? = some task) (hpurpose : task.purpose = .firstLoad l.context)
    (houtcome : task.view.outcome = l.outcome) (hseconds : t.seconds task = l.seconds)
    (hviewed : t.engine.applyAll task.view.operations = l.viewed e) :
    l.Recorded e (t.endView l.call) := by
  have hended : (l.viewed e).onTraffic (.viewEnds l.call l.outcome l.seconds) = l.ended e := rfl
  have hfinish := finishFirstLoad_eq hreading e
  unfold Timeline.endView Timeline.settle
  simp only [htask, houtcome, hseconds, hviewed, hended, result?_ended h, Timeline.conclude,
    hpurpose, hfinish]
  unfold Timeline.finish
  dsimp only
  split
  · exact ⟨rfl, ExtTreeMap.getElem?_insert_self⟩
  · exact ⟨rfl, ExtTreeMap.getElem?_insert_self⟩

theorem launch_firstLoad (h : l.Proper e) {t : Timeline} {task : Task}
    (hengine : t.engine = e.after l.before) (hcall : t.nextCall = l.call)
    (hpurpose : task.purpose = .firstLoad l.context) (hscope : task.scope = l.scope) :
    (t.launch task).1 = l.call ∧ ∃ noted : Timeline, noted.engine = l.begun e ∧
      noted.tasks[l.call]? = some task ∧
      (t.launch task).2 = match task.view.delay with
        | some delay => {noted with sleeping := noted.sleeping.insert l.call (t.now + delay)}
        | none => noted.endView l.call := by
  have hbegun : t.engine.beginFirstLoad l.call l.scope l.context = l.begun e := by
    rw [hengine]
    rfl
  unfold Timeline.launch
  simp only [hpurpose, hscope, hcall, hbegun]
  have htask : (t.tasks.insert l.call task)[l.call]? = some task := ExtTreeMap.getElem?_insert_self
  have hnow : (l.begun e).now = t.now := by
    rw [← hbegun]
    rfl
  generalize (if task.name.isEmpty = true then t.named else t.named.insert task.name l.call) = named
  let under : Timeline := {t with
    engine := l.begun e
    nextCall := l.call + 1
    tasks := t.tasks.insert l.call task
    named}
  obtain ⟨noted, hsame, htasks, hproceed⟩ :=
    Timeline.proceed_of_viewing (show under.tasks[l.call]? = some task from htask) (at_begun h)
  refine ⟨trivial, noted, hsame, htasks ▸ htask, ?_⟩
  rw [hproceed]
  unfold Timeline.now
  rw [hnow]
  rfl

/-- What a first load does to the engine, and what it gives. -/
structure Agrees (l : FirstLoad) (e : Engine) : Prop where
  /-- The context is registered as it was given. -/
  registered : (l.begun e).presence = (e.after l.before).presence.register l.context
  live : (l.begun e).presence.contexts[l.context.id]? = some l.context
  /-- Then the view starts. -/
  starts : (l.begun e).traffic.At l.call l.request .viewing
  begins : Traffic.Undisturbed (l.begun e).traffic (e.after l.before).traffic l.call
  runs : (l.viewed e).traffic.At l.call l.request .viewing
  /-- What the first load does from then on, or its cancellation, leaves all else alone. -/
  ends : Engine.Unmoved l.call (l.viewed e) (l.ended e)
  cancels : Engine.Unmoved l.call (l.viewed e) ((l.viewed e).onTraffic (.cancel l.call))
  looks : Engine.Unmoved l.call (l.looking e) (l.finished e)
  /-- All that happens is a list of acts. -/
  acts : e.after l.acts = l.finished e
  error : ∀ cause, l.outcome = .error cause →
    l.result e = .error (.view cause) ∧ l.finished e = l.looking e
  whole : ∀ content, l.outcome = .ok content → isWholeDocument content = true →
    l.result e = .ok content ∧ l.finished e = l.looking e
  inline : ∀ content shell, l.outcome = .ok content → isWholeDocument content = false →
    e.documents.shell = .inline shell →
    l.result e = .ok ((l.ended e).documents.wrap shell content l.context l.context.id) ∧
      ∀ files, l.result e = ((l.ended e).documents.build files content l.context
        l.context.id).mapError .document
  /-- The shell of a file is what the first successful read gave, now and for good. -/
  file : ∀ content path shell, l.outcome = .ok content → isWholeDocument content = false →
    e.documents.shell = .path path → Engine.firstRead? path e l.acts = some shell →
    l.result e = .ok ((l.ended e).documents.wrap shell content l.context l.context.id) ∧
      ∀ more, l.acts <+: more → Engine.firstRead? path e more = some shell
  /-- As long as no read has succeeded, each look reads the file. -/
  unread : ∀ content path, l.outcome = .ok content → isWholeDocument content = false →
    e.documents.shell = .path path → Engine.firstRead? path e l.acts = none →
    (l.finished e).shell = none ∧ ∃ cause, (l.looking e).files path = .error cause ∧
      l.result e = .error (.document (.shell path cause))
  atOnce : l.reading = [] → (l.ended e).finishFirstLoad l.context l.outcome =
    (l.result e, l.finished e)
  /-- A task whose view sleeps has begun the first load. -/
  sleeps : ∀ (t : Timeline) (task : Task) (delay : Nat), t.engine = e.after l.before →
    t.nextCall = l.call → task.purpose = .firstLoad l.context → task.scope = l.scope →
    task.view.delay = some delay →
    (t.launch task).1 = l.call ∧ (t.launch task).2.engine = l.begun e ∧
      (t.launch task).2.tasks[l.call]? = some task ∧
      (t.launch task).2.sleeping[l.call]? = some (t.now + delay)
  /-- A task whose view does not sleep runs the first load to its end. -/
  launched : l.reading = [] → ∀ (t : Timeline) (task : Task), t.engine = e.after l.before →
    t.nextCall = l.call → task.purpose = .firstLoad l.context → task.scope = l.scope →
    task.view.delay = none → task.view.outcome = l.outcome → t.seconds task = l.seconds →
    (l.begun e).applyAll task.view.operations = l.viewed e →
    (t.launch task).1 = l.call ∧ l.Recorded e (t.launch task).2
  /-- A view that has slept runs then. -/
  recorded : l.reading = [] → ∀ (t : Timeline) (task : Task), t.tasks[l.call]? = some task →
    task.purpose = .firstLoad l.context → task.view.outcome = l.outcome →
    t.seconds task = l.seconds → t.engine.applyAll task.view.operations = l.viewed e →
    l.Recorded e (t.endView l.call)

end FirstLoad

/-- **First loads.** Take an engine that has not read its shell, and a first load at any
moment of whatever it does from then on. The context is live as it was given when the view
starts, also when a task is launched for it, and neither the end of the view, nor a look at
the shell, nor a cancellation changes anything about presence, documents, or what renders are
to others. An error of the view is returned as such, a whole document as it is, and no shell
is looked at then. A fragment is put into the shell with the context as it was given and the
documents as they were when the view ended: into an inline shell as a document is built, and
into that of a file as the first read that succeeded gave it, in this look or an earlier one,
and to all later first loads. If there is none yet, the read has failed, its cause is
returned, and nothing is remembered. -/
theorem first_load_agrees (e : Engine) (hstart : e.shell = none) (l : FirstLoad) (h : l.Proper e) :
    l.Agrees e where
  registered := rfl
  live := by
    show ((e.after l.before).presence.register l.context).contexts[l.context.id]? = _
    rw [Presence.contexts_register, ExtTreeMap.getElem?_insert_self]
  starts := FirstLoad.at_begun h
  begins := by
    refine Traffic.undisturbed_of_forget ?_
    rw [FirstLoad.traffic_begun h, Traffic.forget_setPhase_self]
  runs := FirstLoad.at_viewed h
  ends := FirstLoad.unmoved_ended h
  cancels := FirstLoad.unmoved_cancel h
  looks := FirstLoad.unmoved_finished e l
  acts := (FirstLoad.finished_eq e l).symm
  error cause houtcome :=
    ⟨FirstLoad.result_of_error houtcome e, FirstLoad.finished_of_error houtcome e⟩
  whole content houtcome hwhole :=
    ⟨FirstLoad.result_of_whole houtcome hwhole e, FirstLoad.finished_of_whole houtcome hwhole e⟩
  inline content shell houtcome hfragment hinline :=
    ⟨FirstLoad.result_of_inline houtcome hfragment hinline,
      FirstLoad.result_eq_build houtcome hfragment hinline⟩
  file content path shell houtcome hfragment hpath hread :=
    ⟨FirstLoad.result_of_read houtcome hfragment hstart hpath hread,
      fun more hmore => Engine.firstRead?_of_prefix hread hmore⟩
  unread content path houtcome hfragment hpath hread := by
    refine ⟨?_, FirstLoad.result_of_no_read houtcome hfragment hstart hpath hread⟩
    rw [FirstLoad.finished_eq, Engine.shell_after hpath, hstart, hread]
    rfl
  atOnce hreading := FirstLoad.finishFirstLoad_eq hreading e
  sleeps t task delay hengine hcall hpurpose hscope hdelay := by
    obtain ⟨hfirst, noted, hbegun, htask, hlaunch⟩ :=
      FirstLoad.launch_firstLoad h hengine hcall hpurpose hscope
    rw [hdelay] at hlaunch
    rw [hlaunch]
    exact ⟨hfirst, hbegun, htask, ExtTreeMap.getElem?_insert_self⟩
  launched hreading t task hengine hcall hpurpose hscope hdelay houtcome hseconds hviewed := by
    obtain ⟨hfirst, noted, hbegun, htask, hlaunch⟩ :=
      FirstLoad.launch_firstLoad h hengine hcall hpurpose hscope
    rw [hdelay] at hlaunch
    refine ⟨hfirst, hlaunch ▸ ?_⟩
    have hnow : noted.seconds task = t.seconds task := by
      rw [Timeline.seconds, Timeline.now, hbegun, Timeline.seconds, Timeline.now, hengine]
      rfl
    exact FirstLoad.recorded_endView hreading h htask hpurpose houtcome (hnow.trans hseconds)
      (hbegun ▸ hviewed)
  recorded hreading _ _ := FirstLoad.recorded_endView hreading h

/-- A shell with tokens for the head, the fragment and a signal. -/
def threefold : String :=
  "\x7b\x7b head \x7d\x7d \x7b\x7b content \x7d\x7d \x7b\x7b signal.n \x7d\x7d"

/-- An engine whose shell is a file that is not there. -/
def unshelled : Engine := .start {shell := .path "p"} (fun _ => .error .notFound) 0

/-- While the view runs, it binds a signal, another first load begins, and the file comes.
That one reads the file before it changes, and this one looks last. -/
def overtaken : FirstLoad where
  call := 0
  scope := .tab
  context := {id := "a", route := "/", session := "s"}
  outcome := .ok "x"
  seconds := 0.0
  before := [.recallShell]
  meanwhile := [.operation (.injectHead "h"), .operation (.edit "a" [.bind ⟨"n", .null⟩]),
    .render (.arrive 1 ⟨.tab, .initial, true⟩ 0.0),
    .operation (.putFile "p" (.ok threefold))]
  reading := [.recallShell, .operation (.putFile "p" (.ok builtInShell)),
    .operation (.injectHead "late")]

/-- The same first load as a task. -/
def drowsy : Task where
  name := "a"
  purpose := .firstLoad overtaken.context
  scope := .tab
  view := {delay := some 5, outcome := .ok "x"}
  startedAt := 0

/-- The task begins the first load and sleeps. The shell is what the other one read; the signal
and the late markup are not in it. -/
theorem first_load_agrees_overtaken : overtaken.Proper unshelled ∧
    ((Timeline.start (unshelled.after overtaken.before)).launch drowsy).2.engine =
      overtaken.begun unshelled ∧
    overtaken.result unshelled = .ok "h x \x7b\x7b signal.n \x7d\x7d" := by
  have hproper : overtaken.Proper unshelled := by
    refine ⟨rfl, ?_⟩
    simp [overtaken, Act.events, Operation.events, Traffic.caller?]
  have hagrees := first_load_agrees unshelled rfl overtaken hproper
  have hsleeps := hagrees.sleeps (.start (unshelled.after overtaken.before)) drowsy 5
    rfl rfl rfl rfl rfl
  refine ⟨hproper, hsleeps.2.1, ?_⟩
  have hread : Engine.firstRead? "p" unshelled overtaken.acts = some threefold := rfl
  have hfile := hagrees.file "x" "p" threefold rfl (by decide +kernel) rfl hread
  rw [hfile.1]
  exact congrArg Except.ok (by decide +kernel)

end SharedViews
