import FieldMap.Proofs.BrokenRules
import FieldMap.Proofs.InPlaceLayout
import Mathlib.Algebra.Order.BigOperators.Group.List

/-!
# How deep an expansion goes

A compilation calls itself for every struct inside a struct, and nothing in the schema keeps structs
from holding each other.  This module shows that it ends all the same, and how deep it gets.

* `Mirrors` compares a traced computation with a step in place: both come to the same and report the
  same, every report is a good one, and after a success the workspace is as wanted.  It has a rule
  for each way of putting steps together, `mirrors_bind` and `mirrors_fold` among them.
* `Report.Sound` is what holds whenever a struct is entered.  It follows from `Scope.Stands`, which
  ties the trail and the levels that are left to a chain of references from the target.
* `Enough` says that the frames suffice: there are more of them than levels left, or more than listed
  structs that are not on the trail.  Either number drops with every struct that is entered.

`mirrors_expand` puts these together by induction on the frames.
-/

namespace FieldMap
namespace InPlace

/-! ## Steps that do what a traced computation says -/

/-- These events have been reported in between, and all of the reports are good. -/
def Reported (good : Report → Prop) (events : List Event) (before after : Workspace) : Prop :=
  ∃ reports, after.reports = before.reports ++ reports ∧ reports.map (·.event) = events ∧
    ∀ report ∈ reports, good report

theorem Reported.none {good : Report → Prop} {before after : Workspace}
    (h : after.reports = before.reports) : Reported good [] before after :=
  ⟨[], by rw [h, List.append_nil], rfl, fun _ hreport => nomatch hreport⟩

theorem Reported.append {good : Report → Prop} {events later : List Event}
    {before between after : Workspace} (h : Reported good events before between)
    (h' : Reported good later between after) : Reported good (events ++ later) before after := by
  obtain ⟨reports, hreports, hevents, hgood⟩ := h
  obtain ⟨reports', hreports', hevents', hgood'⟩ := h'
  refine ⟨reports ++ reports', ?_, ?_, ?_⟩
  · rw [hreports', hreports, List.append_assoc]
  · rw [List.map_append, hevents, hevents']
  · intro report hreport
    rcases List.mem_append.mp hreport with hmem | hmem
    · exact hgood report hmem
    · exact hgood' report hmem

/-- With no report before, these are all that there are. -/
theorem Reported.of_start {good : Report → Prop} {events : List Event} {last : Workspace}
    (h : Reported good events {} last) :
    last.reports.map (·.event) = events ∧ ∀ report ∈ last.reports, good report := by
  obtain ⟨reports, hreports, hevents, hgood⟩ := h
  have hall : last.reports = reports := hreports
  subst hall
  exact ⟨hevents, hgood⟩

/-- The step comes to the same as the traced computation, with the same events. -/
inductive Mirrors {α β : Type} (good : Report → Prop) (wanted : α → β → Workspace → Prop)
    (x : Traced CompileError α) (step : Step β) (w : Workspace) : Prop
  | ok {a : α} {b : β} {next : Workspace} (hx : x.result = .ok a)
      (hstep : step.run w = (.ok b, next)) (hreported : Reported good x.events w next)
      (hwanted : wanted a b next)
  | error {e : CompileError} {next : Workspace} (hx : x.result = .error e)
      (hstep : step.run w = (.error (.broken e), next)) (hreported : Reported good x.events w next)

section
variable {α β γ δ : Type} {good : Report → Prop} {wanted : α → β → Workspace → Prop}
  {ending : γ → δ → Workspace → Prop} {w : Workspace}

theorem mirrors_pure {a : α} {b : β} (h : wanted a b w) :
    Mirrors good wanted (pure a) (pure b) w :=
  .ok rfl rfl (.none rfl) h

theorem Mirrors.mono {x : Traced CompileError α} {step : Step β}
    {weaker : α → β → Workspace → Prop} (h : Mirrors good wanted x step w)
    (hweaker : ∀ a b next, wanted a b next → weaker a b next) : Mirrors good weaker x step w := by
  cases h with
  | error hx hstep hreported => exact .error hx hstep hreported
  | ok hx hstep hreported hwanted => exact .ok hx hstep hreported (hweaker _ _ _ hwanted)

theorem mirrors_bind {x : Traced CompileError α} {step : Step β} {f : α → Traced CompileError γ}
    {g : β → Step δ} (h : Mirrors good wanted x step w)
    (hrest : ∀ a b next, wanted a b next → Mirrors good ending (f a) (g b) next) :
    Mirrors good ending (x >>= f) (step >>= g) w := by
  obtain ⟨events, result⟩ := x
  cases h with
  | @error e next hx hstep hreported =>
      cases hx
      exact .error rfl (run_bind_of_error hstep) hreported
  | @ok a b next hx hstep hreported hwanted =>
      cases hx
      have hevents : ((⟨events, .ok a⟩ : Traced CompileError α) >>= f).events =
          events ++ (f a).events := rfl
      cases hrest a b next hwanted with
      | error hy hlast hlater =>
          exact .error hy ((run_bind_of_ok hstep).trans hlast) (hevents ▸ hreported.append hlater)
      | ok hy hlast hlater hending =>
          exact .ok hy ((run_bind_of_ok hstep).trans hlast) (hevents ▸ hreported.append hlater)
            hending

/-- The step puts its value into another form, which is wanted for the same value. -/
theorem mirrors_map {x : Traced CompileError α} {step : Step β} {f : β → δ}
    {ending : α → δ → Workspace → Prop}
    (h : Mirrors good (fun a b => ending a (f b)) x step w) :
    Mirrors good ending x (do let b ← step; pure (f b)) w := by
  cases h with
  | error hx hstep hreported => exact .error hx (run_bind_of_error hstep) hreported
  | ok hx hstep hreported hending => exact .ok hx (run_bind_of_ok hstep) hreported hending

/-- A loop keeps what each of its rounds keeps. -/
theorem mirrors_fold {ι : Type} {f : α → ι → Traced CompileError α} {g : β → ι → Step β}
    {items : List ι}
    (hround : ∀ item ∈ items, ∀ a b w, wanted a b w → Mirrors good wanted (f a item) (g b item) w)
    {a : α} {b : β} (h : wanted a b w) :
    Mirrors good wanted (Traced.fold f a items) (items.foldlM g b) w := by
  induction items generalizing a b w with
  | nil => exact mirrors_pure h
  | cons item items ih =>
      obtain ⟨hfirst, hlater⟩ := List.forall_mem_cons.mp hround
      rw [Traced.fold_cons, List.foldlM_cons]
      exact mirrors_bind (hfirst a b w h) fun a b next hnext => ih hlater hnext

theorem run_check_of_ok {test : Workspace → Except CompileError β} {b : β} (h : test w = .ok b) :
    (check test).run w = (.ok b, w) := by
  show ((test w).mapError Halt.broken, w) = _
  rw [h]
  rfl

theorem run_check_of_error {test : Workspace → Except CompileError β} {e : CompileError}
    (h : test w = .error e) : (check test).run w = (.error (.broken e), w) := by
  show ((test w).mapError Halt.broken, w) = _
  rw [h]
  rfl

/-- What a check comes to is what the traced computation is given. -/
theorem mirrors_ofExcept {test : Workspace → Except CompileError α} {result : Except CompileError α}
    {wanted : α → α → Workspace → Prop} (htest : test w = result)
    (h : ∀ a, result = .ok a → wanted a a w) :
    Mirrors good wanted (Traced.ofExcept result) (check test) w := by
  subst htest
  cases hresult : test w with
  | error e => exact .error rfl (run_check_of_error hresult) (.none rfl)
  | ok a => exact .ok rfl (run_check_of_ok hresult) (.none rfl) (h a hresult)

/-- A check that fails where the traced computation fails. -/
theorem mirrors_fail {test : Workspace → Except CompileError β} {e : CompileError}
    {rest : β → Step δ} (htest : test w = .error e) :
    Mirrors good ending (Traced.fail e) (check test >>= rest) w :=
  .error rfl (run_bind_of_error (run_check_of_error htest)) (.none rfl)

/-- A check that the traced computation has passed otherwise. -/
theorem mirrors_passed {x : Traced CompileError γ} {test : Workspace → Except CompileError β} {b : β}
    {rest : β → Step δ} (htest : test w = .ok b) (h : Mirrors good ending x (rest b) w) :
    Mirrors good ending x (check test >>= rest) w := by
  have hcheck := run_check_of_ok htest
  cases h with
  | error hx hlast hreported => exact .error hx ((run_bind_of_ok hcheck).trans hlast) hreported
  | ok hx hlast hreported hwanted =>
      exact .ok hx ((run_bind_of_ok hcheck).trans hlast) hreported hwanted

/-- A change that the traced computation knows nothing of. -/
theorem mirrors_change {x : Traced CompileError γ} {f : Workspace → Workspace}
    {rest : Unit → Step δ} (hf : (f w).reports = w.reports)
    (h : Mirrors good ending x (rest ()) (f w)) :
    Mirrors good ending x (change f >>= rest) w := by
  have hchange : (change f).run w = (.ok (), f w) := rfl
  have hsame {events : List Event} {last : Workspace} (hlater : Reported good events (f w) last) :
      Reported good events w last := (Reported.none hf).append hlater
  cases h with
  | error hx hlast hreported =>
      exact .error hx ((run_bind_of_ok hchange).trans hlast) (hsame hreported)
  | ok hx hlast hreported hwanted =>
      exact .ok hx ((run_bind_of_ok hchange).trans hlast) (hsame hreported) hwanted

theorem mirrors_report (event : Workspace → Event) (hgood : good ⟨w.depth, event w⟩)
    {wanted : Unit → Unit → Workspace → Prop} (h : wanted () () (w.reported (event w))) :
    Mirrors good wanted (Traced.report (event w)) (report event) w := by
  refine .ok rfl rfl ⟨[⟨w.depth, event w⟩], rfl, rfl, ?_⟩ h
  intro report hreport
  rw [List.mem_singleton.mp hreport]
  exact hgood

theorem mirrors_between {x : Traced CompileError γ} {enter leave : Workspace → Workspace}
    {step : Step δ} (henter : (enter w).reports = w.reports)
    (hleave : ∀ inner, (leave inner).reports = inner.reports)
    (h : Mirrors good (fun c d inner => ending c d (leave inner)) x step (enter w)) :
    Mirrors good ending x (between enter leave step) w := by
  have hbefore : Reported good [] w (enter w) := .none henter
  have henter : (change enter).run w = (.ok (), enter w) := rfl
  cases h with
  | error hx hstep hreported =>
      exact .error hx ((run_bind_of_ok henter).trans (run_bind_of_error hstep))
        (hbefore.append hreported)
  | @ok c d inner hx hstep hreported hending =>
      have hlast : (do change leave; pure d : Step δ).run inner = (.ok d, leave inner) := rfl
      refine .ok hx ((run_bind_of_ok henter).trans ((run_bind_of_ok hstep).trans hlast)) ?_ hending
      obtain ⟨reports, hreports, hevents, hgood⟩ := hbefore.append hreported
      exact ⟨reports, (hleave inner).trans hreports, hevents, hgood⟩

end

/-! ## Where a compilation stands -/

/-- When a struct is entered, the names on the trail are those on a chain of references from the
target to the struct, all different, and no more references lead there than levels are open. -/
def Report.Sound (scope : Scope) (target : Struct) (report : Report) : Prop :=
  ∀ trail, report.event = .expanding trail →
    ∃ references owner, Chain scope target references owner ∧ trail.head? = some owner.name ∧
      trail.reverse = chainNames target references ∧ trail.Nodup ∧
      references.length ≤ report.depth ∧ report.depth ≤ 256

theorem length_le_chainLevels (references : List Reference) :
    references.length ≤ chainLevels references := by
  have hpos : ∀ levels ∈ references.map (·.member.levels), 1 ≤ levels := by
    intro levels hlevels
    obtain ⟨reference, -, rfl⟩ := List.mem_map.mp hlevels
    exact reference.member.levels_pos
  have hle := List.length_le_sum_of_one_le _ hpos
  rwa [List.length_map] at hle

/-- The listed structs that are not on the trail. -/
def unvisited (scope : Scope) (trail : List String) : List Struct :=
  scope.structs.filter fun s => s.name ∉ trail

/-- There are more frames than levels that may still be opened, or than structs to meet. -/
def Enough (scope : Scope) (frames room : Nat) (trail : List String) : Prop :=
  room < frames ∨ (unvisited scope trail).length < frames

section
variable {scope : Scope} {target owner nested : Struct} {references : List Reference} {room : Nat}
  {trail : List String}

/-- What is reported on entry is sound. -/
theorem Report.sound_of_stands (h : scope.Stands target references owner trail room)
    {depth : Nat} (hdepth : depth = chainLevels references) :
    Report.Sound scope target ⟨depth, .expanding trail⟩ := by
  rintro _ ⟨⟩
  have hlevels : chainLevels references + room = 256 := h.levels
  have hreverse : trail.reverse = chainNames target references := by
    rw [h.trail_eq, List.reverse_reverse]
  refine ⟨references, owner, h.chain, ?_, hreverse, ?_, ?_, ?_⟩
  · rw [← List.getLast?_reverse, hreverse]
    exact h.chain.getLast?_chainNames
  · rw [← List.nodup_reverse, hreverse]
    exact h.distinct
  · show references.length ≤ depth
    rw [hdepth]
    exact length_le_chainLevels references
  · show depth ≤ 256
    omega

/-- A struct that is entered is met for the first time. -/
theorem length_unvisited_lt (hlisted : nested ∈ scope.structs)
    (hfree : nested.name ∉ trail) :
    (unvisited scope (nested.name :: trail)).length < (unvisited scope trail).length := by
  have hfilter : unvisited scope (nested.name :: trail) =
      (unvisited scope trail).filter fun s => s.name ≠ nested.name := by
    unfold unvisited
    rw [List.filter_filter]
    refine List.filter_congr fun s _ => ?_
    simp only [List.mem_cons, not_or, Bool.decide_and]
  rw [hfilter, List.length_filter_lt_length_iff_exists]
  refine ⟨nested, List.mem_filter.mpr ⟨hlisted, decide_eq_true hfree⟩, ?_⟩
  rw [decide_eq_true_iff]
  exact fun hother => hother rfl

/-- One frame less suffices inside a struct that is entered. -/
theorem Enough.enter {frames lower : Nat}
    (h : Enough scope (frames + 1) room trail) (hlisted : nested ∈ scope.structs)
    (hfree : nested.name ∉ trail) (hlower : lower < room) :
    Enough scope frames lower (nested.name :: trail) := by
  have hless := length_unvisited_lt hlisted hfree
  rcases h with hroom | hstructs
  · exact .inl (by omega)
  · exact .inr (by omega)

end

/-! ## What the steps do in place -/

/-- Entries have been appended to the table, with the trail and the depth as they were. -/
structure Appended (w : Workspace) (sizes : List UInt8) (next : Workspace) : Prop where
  sizes : next.sizes = w.sizes ++ sizes
  trail : next.trail = w.trail
  depth : next.depth = w.depth

/-- A property has been built as it was laid out, with its entries in the table. -/
def Built (w : Workspace) (placed : List UInt8 × Node) (node : Node) (next : Workspace) : Prop :=
  placed.2 = node ∧ Appended w placed.1 next

/-- Properties have been built as they were laid out, with their entries in the table. -/
def Filled (w : Workspace) (layout : Compile.Layout) (properties : Forest) (next : Workspace) :
    Prop :=
  layout.properties = properties ∧ Appended w layout.sizes next

/-- A loop has gone so far in place as in the layout. -/
structure Gathered (w : Workspace) (progress : Compile.Progress) (nodes : List Node)
    (next : Workspace) : Prop where
  /-- The next entry of the layout is the end of the table in place. -/
  next_eq : progress.next = next.sizes.length
  nodes : progress.nodes = nodes
  appended : Appended w progress.sizes.reverse next

theorem Appended.none (w : Workspace) : Appended w [] w :=
  ⟨(List.append_nil _).symm, rfl, rfl⟩

theorem Appended.trans {w between last : Workspace} {sizes later : List UInt8}
    (h : Appended w sizes between) (h' : Appended between later last) :
    Appended w (sizes ++ later) last where
  sizes := by rw [h'.sizes, h.sizes, List.append_assoc]
  trail := h'.trail.trans h.trail
  depth := h'.depth.trans h.depth

/-- An item after another is built in place as the loop lays them out. -/
theorem mirrors_gather {ι : Type} {good : Report → Prop}
    (piece : Nat → ι → Traced CompileError (List UInt8 × Node)) (step : ι → Step Node)
    {items : List ι} {w : Workspace}
    (hitem : ∀ item ∈ items, ∀ here : Workspace, here.trail = w.trail → here.depth = w.depth →
      Mirrors good (Built here) (piece here.sizes.length item) (step item) here) :
    Mirrors good (Gathered w)
      (Traced.fold (fun (progress : Compile.Progress) item =>
        progress.grow fun start => piece start item) ⟨w.sizes.length, [], []⟩ items)
      (gather step items) w := by
  refine mirrors_fold ?_ ⟨rfl, rfl, .none w⟩
  rintro item hmem progress nodes here ⟨hnext, hnodes, happended⟩
  have hstep := hitem item hmem here happended.trail happended.depth
  rw [← hnext] at hstep
  refine mirrors_bind hstep ?_
  rintro ⟨sizes, node⟩ _ next ⟨rfl, hbuilt⟩
  refine mirrors_pure ⟨?_, congrArg (node :: ·) hnodes, ?_⟩
  · show progress.next + sizes.length = next.sizes.length
    rw [hbuilt.sizes, List.length_append, hnext]
  · show Appended w (sizes.reverseAux progress.sizes).reverse next
    rw [List.reverseAux_eq, List.reverse_append, List.reverse_reverse]
    exact happended.trans hbuilt

theorem Gathered.filled {w next : Workspace} {progress : Compile.Progress} {nodes : List Node}
    (h : Gathered w progress nodes next) :
    Filled w progress.layout (Forest.ofReversed nodes) next :=
  ⟨congrArg Forest.ofReversed h.nodes, h.appended⟩

/-- A property is built as it is laid out, when what lies below it is. -/
theorem mirrors_nest {α : Type} {good : Report → Prop} {x : Traced CompileError α}
    (layoutOf : α → Compile.Layout) {children : Step Forest} {owner : Struct} {member : Member}
    {name : Option String} {w : Workspace} (hdepth : w.depth < maxDepth)
    (h : Mirrors good (fun a => Filled { w with depth := w.depth + 1 } (layoutOf a)) x children
      { w with depth := w.depth + 1 }) :
    Mirrors good (Built w)
      (do
        let index ← Traced.ofExcept (Compile.nextIndex owner member w.sizes.length)
        let a ← x
        pure ((layoutOf a).sizes, ⟨index, name, (layoutOf a).properties⟩))
      (nest owner member name children) w := by
  refine mirrors_passed (if_pos hdepth) ?_
  have hindex : Mirrors good (fun index index' next => index = index' ∧ w = next)
      (Traced.ofExcept (Compile.nextIndex owner member w.sizes.length)) (nextIndex owner member) w :=
    mirrors_ofExcept rfl fun index _ => ⟨rfl, rfl⟩
  refine mirrors_bind hindex ?_
  rintro index _ _ ⟨rfl, rfl⟩
  have hbelow : Mirrors good (fun a => Filled w (layoutOf a)) x
      (between (fun w => { w with depth := w.depth + 1 }) (fun w => { w with depth := w.depth - 1 })
        children) w := by
    refine mirrors_between rfl (fun _ => rfl) (h.mono ?_)
    rintro a properties inner ⟨hproperties, happended⟩
    have hup : inner.depth - 1 = w.depth := by
      rw [happended.depth]
      exact Nat.add_sub_cancel _ _
    exact ⟨hproperties, happended.sizes, happended.trail, hup⟩
  refine mirrors_bind hbelow ?_
  rintro a _ next ⟨rfl, happended⟩
  exact mirrors_pure ⟨rfl, happended⟩

theorem mirrors_leaf {context : Compile.Context} {scope : Scope} {target owner : Struct}
    {member : Member} {type : Primitive} (w : Workspace) :
    Mirrors (Report.Sound scope target) (Built w)
      (Compile.leaf context owner w.sizes.length member type) (leaf context owner member type)
      w := by
  unfold Compile.leaf leaf
  by_cases hbytes : 255 < type.bytes member.copies
  · simp only [hbytes, if_true]
    exact mirrors_fail rfl
  simp only [hbytes, if_false]
  refine mirrors_passed rfl ?_
  have hindex : Mirrors (Report.Sound scope target)
      (fun index index' next => index = index' ∧ index.toNat = w.sizes.length ∧ w = next)
      (Traced.ofExcept (Compile.nextIndex owner member w.sizes.length)) (nextIndex owner member)
      w := by
    refine mirrors_ofExcept rfl fun index hnext => ⟨rfl, ?_, rfl⟩
    obtain ⟨hlt, rfl⟩ := Compile.nextIndex_eq_ok_iff.mp hnext
    exact UInt16.toNat_ofNat_of_lt (Nat.lt_succ_of_lt hlt)
  refine mirrors_bind hindex ?_
  rintro index _ _ ⟨rfl, htoNat, rfl⟩
  rw [htoNat]
  refine mirrors_change rfl ?_
  have hreport : Mirrors (Report.Sound scope target)
      (fun _ _ next => Appended w [UInt8.ofNat (type.bytes member.copies)] next)
      (Traced.report (.leafPlaced owner.name member.name w.sizes.length (type.bytes member.copies)))
      (report fun _ =>
        .leafPlaced owner.name member.name w.sizes.length (type.bytes member.copies))
      { w with sizes := w.sizes ++ [UInt8.ofNat (type.bytes member.copies)] } := by
    refine mirrors_report (fun _ => _) ?_ ⟨rfl, rfl, rfl⟩
    rintro trail ⟨⟩
  refine mirrors_bind hreport ?_
  intro _ _ next happended
  exact mirrors_pure ⟨rfl, happended⟩

/-! ## A struct and what is inside it -/

/-- With so many frames, a struct is expanded in place as it is laid out, and all that is reported
is sound. -/
def Expands (context : Compile.Context) (target : Struct) (frames : Nat) : Prop :=
  ∀ (references : List Reference) (owner : Struct) (room : Nat) (w : Workspace),
    context.scope.Stands target references owner (owner.name :: w.trail) room →
    w.depth = chainLevels references →
    Enough context.scope frames room (owner.name :: w.trail) →
    Mirrors (Report.Sound context.scope target) (Filled w)
      (Compile.expand context room w.trail w.sizes.length owner) (expand context frames owner) w

section
variable {context : Compile.Context} {target owner nested : Struct} {references : List Reference}
  {room frames : Nat} {member : Member} {w : Workspace}
variable (hplace : context.scope.Stands target references owner w.trail room)
  (hmember : member ∈ owner.members)
  (hresolve : context.scope.resolve member.typeName = .struct nested)
  (hfree : nested.name ∉ w.trail) (henough : Enough context.scope (frames + 1) room w.trail)
  (hexpands : Expands context target frames)
include hplace hmember hresolve hfree henough hexpands

/-- A property over a struct, with so many levels in use by the array it is an element of. -/
theorem mirrors_interior {used : Nat} (hlevels : member.levels = used + 1) (hused : used ≤ room)
    (hdepth : w.depth = chainLevels references + used) (name : Option String) :
    Mirrors (Report.Sound context.scope target) (Built w)
      (Compile.interior owner w.trail (Compile.below context (room - used)) w.sizes.length member
        nested name)
      (interior (expand context frames) owner member nested name) w := by
  have hroom : chainLevels references + room = maxDepth := hplace.levels
  cases hleft : room - used with
  | zero =>
      have hfull : ¬ w.depth < maxDepth := by omega
      exact mirrors_fail (if_neg hfull)
  | succ lower =>
      refine mirrors_nest id (by omega) ?_
      have hentered := hplace.enter hmember hresolve hfree (by omega)
      have hlower : room - member.levels = lower := by omega
      rw [hlower] at hentered
      have hlisted := Scope.mem_structs_of_resolve hresolve
      refine hexpands _ nested lower { w with depth := w.depth + 1 } hentered ?_
        (henough.enter hlisted hfree (by omega))
      show w.depth + 1 = _
      rw [chainLevels_snoc, hdepth, hlevels, Nat.add_assoc]

theorem mirrors_array (hcopies : member.copies ≠ 1) (hdepth : w.depth = chainLevels references) :
    Mirrors (Report.Sound context.scope target) (Built w)
      (Compile.array context owner w.trail (Compile.below context room)
        (Compile.below context (room - 1)) w.sizes.length member nested)
      (array context (expand context frames) owner member nested) w := by
  have hroom : chainLevels references + room = maxDepth := hplace.levels
  have hlevels : member.levels = 1 + 1 := if_neg hcopies
  have hcount : Mirrors (Report.Sound context.scope target) (fun _ _ next => w = next)
      (Traced.ofExcept (Compile.checkChildCount owner member.copies))
      (check fun _ => Compile.checkChildCount owner member.copies) w :=
    mirrors_ofExcept rfl fun _ _ => rfl
  refine mirrors_bind hcount ?_
  rintro _ _ _ rfl
  cases room with
  | zero =>
      have hfull : ¬ w.depth < maxDepth := by omega
      exact mirrors_fail (if_neg hfull)
  | succ lower =>
      refine mirrors_nest Compile.Progress.layout (by omega) ?_
      refine mirrors_map ((mirrors_gather _ _ ?_).mono fun _ _ _ hgathered => hgathered.filled)
      -- Every element is built one level deeper, with the same trail.
      intro position _ here (htrail : here.trail = w.trail) hhere
      rw [← htrail] at hplace hfree henough
      have hdeeper : here.depth = chainLevels references + 1 := by rw [hhere, hdepth]
      have hbuilt := mirrors_interior hplace hmember hresolve hfree henough hexpands hlevels
        (Nat.le_add_left 1 lower) hdeeper (context.name (Compile.elementName member position))
      rwa [htrail] at hbuilt

omit hfree

theorem mirrors_structMember (hdepth : w.depth = chainLevels references) :
    Mirrors (Report.Sound context.scope target) (Built w)
      (Compile.structMember context owner w.trail (Compile.below context room)
        (Compile.below context (room - 1)) w.sizes.length member nested)
      (structMember context (expand context frames) owner member nested) w := by
  unfold Compile.structMember structMember
  by_cases hcycle : w.trail.contains nested.name = true
  · rw [if_pos hcycle]
    exact mirrors_fail (if_pos hcycle)
  rw [if_neg hcycle]
  have hfree : nested.name ∉ w.trail := by simpa using hcycle
  by_cases hempty : nested.members.isEmpty = true
  · rw [if_pos hempty]
    exact mirrors_fail ((if_neg hcycle).trans (if_pos hempty))
  rw [if_neg hempty]
  refine mirrors_passed ((if_neg hcycle).trans (if_neg hempty)) ?_
  by_cases hcopies : member.copies = 1
  · rw [if_pos hcopies, if_pos hcopies]
    exact mirrors_interior hplace hmember hresolve hfree henough hexpands (if_pos hcopies)
      (Nat.zero_le room) hdepth _
  · rw [if_neg hcopies, if_neg hcopies]
    exact mirrors_array hplace hmember hresolve hfree henough hexpands hcopies hdepth

end

theorem mirrors_place {context : Compile.Context} {target owner : Struct}
    {references : List Reference} {room frames : Nat} {member : Member} {w : Workspace}
    (hplace : context.scope.Stands target references owner w.trail room)
    (hmember : member ∈ owner.members) (henough : Enough context.scope (frames + 1) room w.trail)
    (hexpands : Expands context target frames) (hdepth : w.depth = chainLevels references) :
    Mirrors (Report.Sound context.scope target) (Built w)
      (Compile.place context owner w.trail (Compile.below context room)
        (Compile.below context (room - 1)) w.sizes.length member)
      (place context (expand context frames) owner member) w := by
  unfold Compile.place place
  cases hresolve : context.scope.resolve member.typeName with
  | primitive type => exact mirrors_leaf w
  | struct nested => exact mirrors_structMember hplace hmember hresolve henough hexpands hdepth
  | unresolved => exact .error rfl (run_check_of_error rfl) (.none rfl)

/-- One frame more is enough for a struct, when those below it are expanded with the rest. -/
theorem expands_succ {context : Compile.Context} {target : Struct} {frames : Nat}
    (hexpands : Expands context target frames) : Expands context target (frames + 1) := by
  intro references owner room w hplace hdepth henough
  rw [Compile.expand_eq_expandWith]
  refine mirrors_between rfl (fun _ => rfl) ?_
  -- The struct is entered with its own name on the trail.
  let entered : Workspace := { w with trail := owner.name :: w.trail }
  have hsound : Report.Sound context.scope target ⟨entered.depth, .expanding entered.trail⟩ :=
    Report.sound_of_stands hplace hdepth
  have hreport : Mirrors (Report.Sound context.scope target)
      (fun _ _ next => next = entered.reported (.expanding entered.trail))
      (Traced.report (.expanding entered.trail)) (report fun w => .expanding w.trail) entered :=
    mirrors_report (fun w => .expanding w.trail) hsound rfl
  refine mirrors_bind hreport ?_
  rintro _ _ _ rfl
  have hmembers : ∀ member ∈ owner.members, ∀ here : Workspace, here.trail = owner.name :: w.trail →
      here.depth = w.depth → Mirrors (Report.Sound context.scope target) (Built here)
        (Compile.place context owner (owner.name :: w.trail) (Compile.below context room)
          (Compile.below context (room - 1)) here.sizes.length member)
        (place context (expand context frames) owner member) here := by
    intro member hmember here htrail hhere
    rw [← htrail] at hplace henough ⊢
    exact mirrors_place hplace hmember henough hexpands (hhere.trans hdepth)
  have hloop := mirrors_gather
    (Compile.place context owner (owner.name :: w.trail) (Compile.below context room)
      (Compile.below context (room - 1)))
    (place context (expand context frames) owner)
    (w := entered.reported (.expanding entered.trail)) hmembers
  refine mirrors_bind hloop ?_
  intro progress nodes next hgathered
  have hcount : Mirrors (Report.Sound context.scope target) (fun _ _ last => next = last)
      (Traced.ofExcept (Compile.checkChildCount owner progress.nodes.length))
      (check fun _ => Compile.checkChildCount owner nodes.length) next := by
    rw [hgathered.nodes]
    exact mirrors_ofExcept rfl fun _ _ => rfl
  refine mirrors_bind hcount ?_
  rintro _ _ _ rfl
  have hfilled := hgathered.filled
  refine mirrors_pure ⟨hfilled.1, hfilled.2.sizes, ?_, hfilled.2.depth⟩
  show next.trail.tail = w.trail
  rw [hfilled.2.trail]
  rfl

/-- A struct is expanded in place as it is laid out. -/
theorem mirrors_expand (context : Compile.Context) (target : Struct) (frames : Nat) :
    Expands context target frames := by
  induction frames with
  | zero =>
      intro references owner room w hplace hdepth henough
      rcases henough with hnone | hnone
      · exact absurd hnone (Nat.not_lt_zero _)
      · exact absurd hnone (Nat.not_lt_zero _)
  | succ frames ih => exact expands_succ ih

/-- The target is compiled in place as by `FieldMap.compileStruct`, with enough frames. -/
theorem mirrors_compileStruct (scope : Scope) (target : Struct) (named : Bool) {frames : Nat}
    (hframes : 257 ≤ frames ∨ scope.structs.length + 1 ≤ frames) :
    Mirrors (Report.Sound scope target) (fun mapping mapping' _ => mapping = mapping')
      (FieldMap.compileStruct scope target named) (compileStruct frames scope target named) {} := by
  have hmax : maxDepth = 256 := rfl
  have hmet : (unvisited scope [target.name]).length ≤ scope.structs.length :=
    List.length_filter_le _ _
  have henough : Enough scope frames maxDepth [target.name] := by
    rcases hframes with hframes | hframes
    · exact .inl (by omega)
    · exact .inr (by omega)
  refine mirrors_bind (mirrors_expand ⟨scope, named⟩ target frames [] target maxDepth {}
    (scope.stands_target target) rfl henough) ?_
  rintro layout _ next ⟨rfl, happended⟩
  have hsizes : layout.sizes = next.sizes := happended.sizes.symm
  have hreport : Mirrors (Report.Sound scope target) (fun _ _ last => layout.sizes = last.sizes)
      (Traced.report (.structCompiled target.name next.sizes.length layout.properties.length))
      (report fun w => .structCompiled target.name w.sizes.length layout.properties.length) next := by
    refine mirrors_report
      (fun w => .structCompiled target.name w.sizes.length layout.properties.length) ?_ hsizes
    rintro trail ⟨⟩
  rw [← hsizes] at hreport
  refine mirrors_bind hreport ?_
  intro _ _ last hlast
  exact mirrors_ofExcept (hlast ▸ rfl) fun _ _ => rfl

/-- What a step that starts with nothing comes to and reports is what the traced computation says. -/
theorem Mirrors.run_eq {α : Type} {good : Report → Prop} {x : Traced CompileError α} {step : Step α}
    (h : Mirrors good (fun a a' _ => a = a') x step {}) :
    ∃ last, step.run {} = (x.result.mapError .broken, last) ∧
      last.reports.map (·.event) = x.events ∧ ∀ report ∈ last.reports, good report := by
  obtain ⟨events, result⟩ := x
  cases h with
  | error hx hstep hreported =>
      cases hx
      exact ⟨_, hstep, hreported.of_start⟩
  | ok hx hstep hreported hsame =>
      cases hx
      cases hsame
      exact ⟨_, hstep, hreported.of_start⟩

end InPlace

/-! ## The bounds -/

theorem Chain.listed {scope : Scope} {first last : Struct} {references : List Reference}
    (hchain : Chain scope first references last) :
    ∀ reference ∈ references, reference.target ∈ scope.structs := by
  induction hchain with
  | nil => exact fun _ hreference => nomatch hreference
  | cons _ hresolve _ ih =>
      exact List.forall_mem_cons.mpr ⟨Scope.mem_structs_of_resolve hresolve, ih⟩

/-- A chain that meets no name twice is no longer than the list of structs. -/
theorem Chain.length_le {scope : Scope} {first last : Struct} {references : List Reference}
    (hchain : Chain scope first references last) (hnodup : (chainNames first references).Nodup) :
    references.length ≤ scope.structs.length := by
  have hsub : references.map (·.target.name) ⊆ scope.structs.map (·.name) := by
    intro name hname
    obtain ⟨reference, hreference, rfl⟩ := List.mem_map.mp hname
    exact List.mem_map_of_mem (hchain.listed reference hreference)
  have hle := (List.subperm_of_subset (List.nodup_cons.mp hnodup).2 hsub).length_le
  rwa [List.length_map, List.length_map] at hle

theorem length_chainNames (first : Struct) (references : List Reference) :
    (chainNames first references).length = references.length + 1 := by
  rw [chainNames, List.length_cons, List.length_map]

/-- A struct is entered inside less than 257 others, and inside no more than are listed. -/
theorem InPlace.Report.Sound.length_le {scope : Scope} {target : Struct} {report : Report}
    (h : report.Sound scope target) {trail : List String} (htrail : report.event = .expanding trail) :
    trail.length ≤ 257 ∧ trail.length ≤ scope.structs.length + 1 := by
  obtain ⟨references, owner, hchain, -, hnames, hnodup, hdepth, hmax⟩ := h trail htrail
  have hlength : trail.length = references.length + 1 := by
    rw [← length_chainNames target, ← hnames, List.length_reverse]
  have hlisted : references.length ≤ scope.structs.length := by
    refine hchain.length_le ?_
    rw [← hnames]
    exact List.nodup_reverse.mpr hnodup
  exact ⟨by omega, by omega⟩

/-- Every compilation ends, and never goes deep.

Compiled in place, a struct comes to what `compileStruct` says, with the same events, as soon as
there are frames for 257 structs inside each other, or for one more than are listed.  Every report
is sound: whenever a struct is entered, the names on the trail are those on a chain of references
from the target, all different, and no more references lead there than levels are open.  A struct, a
member of struct type and a property over a struct leave trail and depth as they were, from wherever
they are begun. -/
theorem expansion_bounded (scope : Scope) (target : Struct) (named : Bool) :
    (∀ frames, 257 ≤ frames ∨ scope.structs.length + 1 ≤ frames →
      ∃ last, (InPlace.compileStruct frames scope target named).run {} =
          ((compileStruct scope target named).result.mapError .broken, last) ∧
        last.reports.map (·.event) = (compileStruct scope target named).events ∧
        ∀ report ∈ last.reports, report.Sound scope target ∧
          ∀ trail, report.event = .expanding trail →
            trail.length ≤ 257 ∧ trail.length ≤ scope.structs.length + 1) ∧
    ∀ frames owner member nested name,
      InPlace.Restores (InPlace.expand ⟨scope, named⟩ frames owner) ∧
      InPlace.Restores (InPlace.structMember ⟨scope, named⟩
        (InPlace.expand ⟨scope, named⟩ frames) owner member nested) ∧
      InPlace.Restores (InPlace.interior (InPlace.expand ⟨scope, named⟩ frames) owner member nested
        name) := by
  constructor
  · intro frames hframes
    obtain ⟨last, hrun, hevents, hsound⟩ :=
      (InPlace.mirrors_compileStruct scope target named hframes).run_eq
    refine ⟨last, hrun, hevents, fun report hreport => ⟨hsound report hreport, ?_⟩⟩
    intro trail htrail
    exact (hsound report hreport).length_le htrail
  · intro frames owner member nested name
    have hexpand := InPlace.restores_expand ⟨scope, named⟩ frames
    exact ⟨hexpand owner, InPlace.restores_structMember hexpand owner member nested,
      InPlace.restores_interior hexpand owner member nested name⟩

/-- Two structs that hold each other are compiled with three frames: the second one is entered
inside the first, two levels deep, and there the compilation stops. -/
theorem ring_expanded_in_place :
    loopScope.structs.length + 1 ≤ 3 ∧
    ∃ last, (InPlace.compileStruct 3 loopScope ringStruct true).run {} =
        (.error (.broken (.invalid ringError)), last) ∧
      last.reports.map (·.event) =
        [.expanding ["Ring"], .leafPlaced "Ring" "size" 0 2, .expanding ["Link", "Ring"],
          .leafPlaced "Link" "weight" 1 1] ∧
      ∀ report ∈ last.reports, report.Sound loopScope ringStruct := by
  obtain ⟨last, hrun, hevents, hbounds⟩ := (expansion_bounded loopScope ringStruct true).1 3
    (.inr (by decide))
  exact ⟨by decide, last, hrun, hevents, fun report hreport => (hbounds report hreport).1⟩

end FieldMap
