import Dwframe.Http.Parser
import Dwframe.Lib.Registry
import Mathlib.Data.List.Induction

/-!
# The servlet dispatcher

`ServletDispatch` maps exact paths to creators and keeps glob patterns in a vector. Each call
runs under the write lock, so a history of the dispatcher is a list of calls. What
`getMatchedServlet` returns is stated over the history, without the map and the vector.

`fnmatch` is a parameter. The names of servlets and creators are left out: only the listing
functions read them.
-/
namespace Dwframe.Http

open Dwframe.Lib.Registry

/-- A `shared_ptr`, null or not. -/
abbrev Pointer (α : Type) := Option α

/-- `NotFoundServlet`. -/
structure NotFoundServlet where
  name : Bytes
  content : Bytes

def NotFoundServlet.new (name : Bytes) : NotFoundServlet where
  name := name
  content := bytes "<html><head><title>404 Not Found" ++
    bytes "</title></head><body><center><h1>404 Not Found</h1></center>" ++
    bytes "<hr><center>" ++ name ++ bytes "</center></body></html>"

/-- `Servlet`: the classes the dispatcher makes itself, and the classes of its users. -/
inductive Servlet (φ κ : Type) where
  | function (cb : φ)
  | notFound (servlet : NotFoundServlet)
  | derived (servlet : κ)

/-- `IServletCreator`: what its `get` returns. -/
structure IServletCreator (φ κ : Type) where
  get : Pointer (Servlet φ κ)

variable {φ κ : Type}

/-- `HoldServletCreator`: `get` returns the pointer it was made with. -/
def holdServletCreator (slt : Pointer (Servlet φ κ)) : IServletCreator φ κ := ⟨slt⟩

/-- `ServletDispatch`. -/
structure ServletDispatch (φ κ : Type) where
  datas : Bytes → Option (Pointer (IServletCreator φ κ))
  globs : List (Bytes × Pointer (IServletCreator φ κ))
  default : Pointer (Servlet φ κ)

namespace ServletDispatch

def new : ServletDispatch φ κ where
  datas := fun _ => none
  globs := []
  default := some (.notFound (.new (bytes "dwframe/1.0")))

def addServletCreator (d : ServletDispatch φ κ) (uri : Bytes)
    (creator : Pointer (IServletCreator φ κ)) : ServletDispatch φ κ :=
  { d with datas := Function.update d.datas uri (some creator) }

def addServlet (d : ServletDispatch φ κ) (uri : Bytes) (slt : Pointer (Servlet φ κ)) :
    ServletDispatch φ κ :=
  { d with datas := Function.update d.datas uri (some (some (holdServletCreator slt))) }

/-- `addServlet` with a callback. -/
def addFunctionServlet (d : ServletDispatch φ κ) (uri : Bytes) (cb : φ) : ServletDispatch φ κ :=
  { d with
    datas := Function.update d.datas uri (some (some (holdServletCreator (some (.function cb))))) }

def addGlobServletCreator (d : ServletDispatch φ κ) (uri : Bytes)
    (creator : Pointer (IServletCreator φ κ)) : ServletDispatch φ κ :=
  { d with globs := d.globs.eraseP (fun it => it.1 = uri) ++ [(uri, creator)] }

def addGlobServlet (d : ServletDispatch φ κ) (uri : Bytes) (slt : Pointer (Servlet φ κ)) :
    ServletDispatch φ κ :=
  { d with globs := d.globs.eraseP (fun it => it.1 = uri) ++
      [(uri, some (holdServletCreator slt))] }

/-- `addGlobServlet` with a callback. -/
def addGlobFunctionServlet (d : ServletDispatch φ κ) (uri : Bytes) (cb : φ) :
    ServletDispatch φ κ :=
  d.addGlobServlet uri (some (.function cb))

def delServlet (d : ServletDispatch φ κ) (uri : Bytes) : ServletDispatch φ κ :=
  { d with datas := Function.update d.datas uri none }

def delGlobServlet (d : ServletDispatch φ κ) (uri : Bytes) : ServletDispatch φ κ :=
  { d with globs := d.globs.eraseP (fun it => it.1 = uri) }

def setDefault (d : ServletDispatch φ κ) (v : Pointer (Servlet φ κ)) : ServletDispatch φ κ :=
  { d with default := v }

/-- `it->second->get()`: `none` when the creator is null. -/
def getOf (creator : Pointer (IServletCreator φ κ)) : Option (Pointer (Servlet φ κ)) :=
  creator.map IServletCreator.get

/-- `getMatchedServlet`: `none` when it dereferences a null creator. -/
def getMatchedServlet (fnmatch : Bytes → Bytes → Int) (d : ServletDispatch φ κ) (uri : Bytes) :
    Option (Pointer (Servlet φ κ)) :=
  match d.datas uri with
  | some creator => getOf creator
  | none =>
    match d.globs.find? fun it => fnmatch it.1 uri == 0 with
    | some it => getOf it.2
    | none => some d.default

/-! ### Histories -/

/-- The calls that change a dispatcher. -/
inductive Call (φ κ : Type) where
  | addServlet (uri : Bytes) (slt : Pointer (Servlet φ κ))
  | addFunctionServlet (uri : Bytes) (cb : φ)
  | addServletCreator (uri : Bytes) (creator : Pointer (IServletCreator φ κ))
  | addGlobServlet (uri : Bytes) (slt : Pointer (Servlet φ κ))
  | addGlobFunctionServlet (uri : Bytes) (cb : φ)
  | addGlobServletCreator (uri : Bytes) (creator : Pointer (IServletCreator φ κ))
  | delServlet (uri : Bytes)
  | delGlobServlet (uri : Bytes)
  | setDefault (v : Pointer (Servlet φ κ))

def step (d : ServletDispatch φ κ) : Call φ κ → ServletDispatch φ κ
  | .addServlet uri slt => d.addServlet uri slt
  | .addFunctionServlet uri cb => d.addFunctionServlet uri cb
  | .addServletCreator uri creator => d.addServletCreator uri creator
  | .addGlobServlet uri slt => d.addGlobServlet uri slt
  | .addGlobFunctionServlet uri cb => d.addGlobFunctionServlet uri cb
  | .addGlobServletCreator uri creator => d.addGlobServletCreator uri creator
  | .delServlet uri => d.delServlet uri
  | .delGlobServlet uri => d.delGlobServlet uri
  | .setDefault v => d.setDefault v

/-- The dispatcher after the calls, the oldest first. -/
def run (calls : List (Call φ κ)) : ServletDispatch φ κ := calls.foldl step new

/-! ### What the history says

A call puts a creator under an exact path, or under a pattern, or removes one. -/

def exactEdit : Call φ κ → Option (Edit Bytes (Pointer (IServletCreator φ κ)))
  | .addServlet uri slt => some (.put uri (some (holdServletCreator slt)))
  | .addFunctionServlet uri cb => some (.put uri (some (holdServletCreator (some (.function cb)))))
  | .addServletCreator uri creator => some (.put uri creator)
  | .delServlet uri => some (.erase uri)
  | _ => none

def globEdit : Call φ κ → Option (Edit Bytes (Pointer (IServletCreator φ κ)))
  | .addGlobServlet uri slt => some (.put uri (some (holdServletCreator slt)))
  | .addGlobFunctionServlet uri cb =>
    some (.put uri (some (holdServletCreator (some (.function cb)))))
  | .addGlobServletCreator uri creator => some (.put uri creator)
  | .delGlobServlet uri => some (.erase uri)
  | _ => none

def newDefault : Call φ κ → Option (Pointer (Servlet φ κ))
  | .setDefault v => some v
  | _ => none

/-- The servlet of the last `setDefault`, before any the one of the constructor. -/
def defaultOf (calls : List (Call φ κ)) : Pointer (Servlet φ κ) :=
  (calls.filterMap newDefault).getLast?.getD (some (.notFound (.new (bytes "dwframe/1.0"))))

/-- `creator` is the latest registration of the exact path `uri`, made at `i` and not removed. -/
def Exact (calls : List (Call φ κ)) (i : Nat) (uri : Bytes)
    (creator : Pointer (IServletCreator φ κ)) : Prop :=
  Stands exactEdit calls i uri creator

/-- `creator` is the latest registration of the pattern, made at `i` and not removed. -/
def Glob (calls : List (Call φ κ)) (i : Nat) (pattern : Bytes)
    (creator : Pointer (IServletCreator φ κ)) : Prop :=
  Stands globEdit calls i pattern creator

/-- What the history says a path is served by: its exact registration; else, among the patterns
that match it, the one whose latest registration is the earliest; else the default. -/
inductive Matched (fnmatch : Bytes → Bytes → Int) (calls : List (Call φ κ)) (uri : Bytes) :
    Option (Pointer (Servlet φ κ)) → Prop where
  | exact (i : Nat) (creator : Pointer (IServletCreator φ κ)) (latest : Exact calls i uri creator) :
      Matched fnmatch calls uri (getOf creator)
  | glob (i : Nat) (pattern : Bytes) (creator : Pointer (IServletCreator φ κ))
      (inexact : ∀ j c, ¬ Exact calls j uri c) (latest : Glob calls i pattern creator)
      (matched : fnmatch pattern uri = 0)
      (earliest : ∀ j other c, Glob calls j other c → fnmatch other uri = 0 → i ≤ j) :
      Matched fnmatch calls uri (getOf creator)
  | default (inexact : ∀ j c, ¬ Exact calls j uri c)
      (unmatched : ∀ j other c, Glob calls j other c → fnmatch other uri ≠ 0) :
      Matched fnmatch calls uri (some (defaultOf calls))

/-! ### The dispatcher refines its history -/

/-- The map, the vector and the default hold what the history says. -/
structure Represents (d : ServletDispatch φ κ) (calls : List (Call φ κ)) : Prop where
  datas : Maps exactEdit calls d.datas
  globs : Lists globEdit calls d.globs
  default : d.default = defaultOf calls

private theorem defaultOf_append (calls : List (Call φ κ)) (call : Call φ κ) :
    defaultOf (calls ++ [call]) = (newDefault call).getD (defaultOf calls) := by
  cases set : newDefault call with
  | none => simp [defaultOf, List.filterMap_append, set]
  | some v => simp [defaultOf, List.filterMap_append, set]

/-- Each call edits one of the three parts. -/
theorem Represents.step {d : ServletDispatch φ κ} {calls : List (Call φ κ)}
    (rep : Represents d calls) (call : Call φ κ) : Represents (d.step call) (calls ++ [call]) := by
  obtain ⟨datas, globs, default⟩ := rep
  have kept : ∀ call, newDefault call = none → d.default = defaultOf (calls ++ [call]) := by
    intro call unset
    rw [defaultOf_append, unset]
    exact default
  cases call with
  | addServlet uri slt =>
    exact ⟨datas.put rfl, globs.skip rfl, kept _ rfl⟩
  | addFunctionServlet uri cb =>
    exact ⟨datas.put rfl, globs.skip rfl, kept _ rfl⟩
  | addServletCreator uri creator =>
    exact ⟨datas.put rfl, globs.skip rfl, kept _ rfl⟩
  | addGlobServlet uri slt =>
    exact ⟨datas.skip rfl, globs.put rfl, kept _ rfl⟩
  | addGlobFunctionServlet uri cb =>
    exact ⟨datas.skip rfl, globs.put rfl, kept _ rfl⟩
  | addGlobServletCreator uri creator =>
    exact ⟨datas.skip rfl, globs.put rfl, kept _ rfl⟩
  | delServlet uri =>
    exact ⟨datas.erase rfl, globs.skip rfl, kept _ rfl⟩
  | delGlobServlet uri =>
    exact ⟨datas.skip rfl, globs.erase rfl, kept _ rfl⟩
  | setDefault v =>
    refine ⟨datas.skip rfl, globs.skip rfl, ?_⟩
    rw [defaultOf_append]
    rfl

theorem run_represents (calls : List (Call φ κ)) : Represents (run calls) calls := by
  induction calls using List.reverseRecOn with
  | nil => exact ⟨Maps.nil, Lists.nil, rfl⟩
  | append_singleton calls call ih =>
    rw [run, List.foldl_append]
    exact ih.step call

/-- What the dispatcher returns is what the history says. -/
theorem Represents.matched {d : ServletDispatch φ κ} {calls : List (Call φ κ)}
    (rep : Represents d calls) (fnmatch : Bytes → Bytes → Int) (uri : Bytes) :
    Matched fnmatch calls uri (d.getMatchedServlet fnmatch uri) := by
  unfold getMatchedServlet
  cases held : d.datas uri with
  | some creator =>
    obtain ⟨i, latest⟩ := (rep.datas uri creator).mp held
    exact Matched.exact i creator latest
  | none =>
    -- no exact registration stands, so the vector decides
    have inexact := (rep.datas.none_iff uri).mp held
    cases found : d.globs.find? fun it => fnmatch it.1 uri == 0 with
    | some it =>
      obtain ⟨pattern, creator⟩ := it
      -- the first match of the vector is the match that was registered earliest
      obtain ⟨i, latest, matched, earliest⟩ :=
        (rep.globs.find?_eq_some (fun p => fnmatch p uri == 0) pattern creator).mp found
      refine Matched.glob i pattern creator inexact latest (by simpa using matched) ?_
      intro j other c stands holds
      exact earliest j other c stands (by simpa using holds)
    | none =>
      have unmatched := (rep.globs.find?_eq_none (fun p => fnmatch p uri == 0)).mp found
      rw [rep.default]
      apply Matched.default inexact
      intro j other c stands
      simpa using unmatched j other c stands

/-- The history says one thing. -/
theorem Matched.unique {fnmatch : Bytes → Bytes → Int} {calls : List (Call φ κ)} {uri : Bytes}
    {served served' : Option (Pointer (Servlet φ κ))} (left : Matched fnmatch calls uri served)
    (right : Matched fnmatch calls uri served') : served = served' := by
  cases left with
  | exact i creator latest =>
    cases right with
    | exact j other latest' => rw [(latest.unique latest').2]
    | glob _ _ _ inexact => exact absurd latest (inexact i creator)
    | default inexact => exact absurd latest (inexact i creator)
  | glob i pattern creator inexact latest matched earliest =>
    cases right with
    | exact j other latest' => exact absurd latest' (inexact j other)
    | glob j pattern' creator' _ latest' matched' earliest' =>
      -- both are the earliest of the standing patterns that match
      have same : i = j := Nat.le_antisymm (earliest j _ _ latest' matched')
        (earliest' i _ _ latest matched)
      subst same
      have equal := latest.1.symm.trans latest'.1
      simp only [Option.some.injEq, Edit.put.injEq] at equal
      rw [equal.2]
    | default _ unmatched => exact absurd matched (unmatched i pattern creator latest)
  | default inexact unmatched =>
    cases right with
    | exact j other latest => exact absurd latest (inexact j other)
    | glob j pattern creator _ latest matched => exact absurd matched (unmatched j _ _ latest)
    | default => rfl

/-- Over every history, a path is served by what the history says, and the vector holds each
pattern once. -/
theorem getMatchedServlet_refines (fnmatch : Bytes → Bytes → Int) (calls : List (Call φ κ)) :
    (∀ uri served, getMatchedServlet fnmatch (run calls) uri = served ↔
      Matched fnmatch calls uri served) ∧ ((run calls).globs.map Prod.fst).Nodup := by
  have rep := run_represents calls
  refine ⟨fun uri served => ⟨?_, ?_⟩, rep.globs.nodup⟩
  · intro result
    rw [← result]
    exact rep.matched fnmatch uri
  · intro stated
    exact Matched.unique (rep.matched fnmatch uri) stated

end ServletDispatch

end Dwframe.Http
