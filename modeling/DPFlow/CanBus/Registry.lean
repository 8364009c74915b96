import DPFlow.Lib.Mealy
import Mathlib.Data.List.Induction
import Mathlib.Data.List.Perm.Basic

/-!
# The plugin registry

Plugins are kept in a map by name. `registerPlugin` looks a name up before it inserts;
`create` indexes the map, which inserts an entry for a name it does not find, with function
pointers that were never initialized, and calls one of them. `availableChannels` calls the
scan function of every entry, that one's too, and `registerPlugin` refuses the name from then
on.

## Main definitions

* `CanBus.PluginInfo`, `CanBus.Registry` — a plugin's functions, and the map.
* `CanBus.registerPlugin`, `CanBus.create`, `CanBus.availableChannels` — the operations.
* `CanBus.Op`, `CanBus.registry` — runs of them, emitting the functions they call.
* `CanBus.Lawful` — only registered functions are called, and entries are there to stay.
-/
namespace DPFlow.CanBus

open Lib

/-- `CanInterfaceInfo`. -/
structure CanInterfaceInfo where
  plugin : String
  name : String
  description : String
  supportsFD : Bool
  currentBitrate : Int32
  deriving DecidableEq, Repr

/-- `CanBusPluginInfo`, with factory functions `F` and scan functions `S`. `none` is a pointer
that was never initialized. -/
structure PluginInfo (F S : Type) where
  name : String
  create : Option F
  scan : Option S
  deriving DecidableEq, Repr

/-- The constructor without arguments: the name is empty. -/
def PluginInfo.default (F S : Type) : PluginInfo F S := { name := "", create := none, scan := none }

/-- `std::map<std::string, CanBusPluginInfo>`. -/
abbrev Registry (F S : Type) := Std.TreeMap String (PluginInfo F S)

variable {F S : Type}

/-- `operator[]`: a name that is not there gets an entry. -/
def index (r : Registry F S) (name : String) : PluginInfo F S × Registry F S :=
  match r[name]? with
  | some info => (info, r)
  | none => (.default F S, r.insert name (.default F S))

def registerPlugin (r : Registry F S) (info : PluginInfo F S) : Bool × Registry F S :=
  if r.contains info.name then (false, r) else (true, r.insert info.name info)

/-- `create`: the factory function that it calls with the channel, and returns the result of. -/
def create (r : Registry F S) (plugin : String) : Option F × Registry F S :=
  let (pinfo, r) := index r plugin
  (pinfo.create, r)

/-- The scan functions that `availableChannels` calls. -/
def scans (r : Registry F S) : List (Option S) := r.toList.map fun entry => entry.2.scan

/-- `availableChannels`, where the scan functions return the given lists; nothing is known of
what a pointer that was never initialized leads to. -/
def availableChannels (probe : Option S → List CanInterfaceInfo) (r : Registry F S) :
    List CanInterfaceInfo :=
  (scans r).flatMap probe

/-! ## Runs -/

/-- A call on the registry. -/
inductive Op (F S : Type)
  | registerPlugin (info : PluginInfo F S)
  | create (plugin channel : String)
  | availableChannels

/-- What a call returns or calls. -/
inductive Effect (F S : Type)
  | registered (info : PluginInfo F S) (ok : Bool)
  | created (factory : Option F) (channel : String)
  | scanned (scan : Option S)

/-- The registry taking calls. -/
def registry (F S : Type) : Mealy (Registry F S) (Op F S) (Effect F S) where
  step r op := match op with
    | .registerPlugin info =>
        let (ok, r) := registerPlugin r info
        (r, [.registered info ok])
    | .create plugin channel =>
        let (factory, r) := create r plugin
        (r, [.created factory channel])
    | .availableChannels => (r, (scans r).map .scanned)

/-- The registry after a list of calls. -/
def after (ops : List (Op F S)) : Registry F S := (registry F S).state ∅ ops

/-- The plugin of a `registerPlugin` that returned `true`. -/
def Effect.granted : Effect F S → Option (PluginInfo F S)
  | registered info true => some info
  | registered _ false | created .. | scanned _ => none

/-- The plugins whose `registerPlugin` returned `true` in a list of calls. -/
def granted (ops : List (Op F S)) : List (PluginInfo F S) :=
  ((registry F S).trace ∅ ops).filterMap Effect.granted

/-- A name that a `registerPlugin` of the calls used. -/
def Used (ops : List (Op F S)) (name : String) : Prop :=
  ∃ info, .registerPlugin info ∈ ops ∧ info.name = name

/-- The law of the registry, for every prefix `pre` of the calls: each entry has the functions
of a `registerPlugin` that returned `true`; a `create` that follows calls the factory that was
registered under the name, and changes no entry; an `availableChannels` that follows calls the
registered scan functions once each; and a `registerPlugin` that follows returns `true` just
when its name was not used before. -/
structure Lawful (ops : List (Op F S)) : Prop where
  entries : ∀ pre, pre <+: ops → ∀ name info, (after pre)[name]? = some info →
    info ∈ granted pre ∧ info.name = name
  factories : ∀ pre plugin channel, pre ++ [.create plugin channel] <+: ops →
    (∃ info ∈ granted pre, info.name = plugin ∧ (create (after pre) plugin).1 = info.create) ∧
      ∀ name : String, (create (after pre) plugin).2[name]? = (after pre)[name]?
  scans : ∀ pre, pre ++ [.availableChannels] <+: ops →
    (scans (after pre)).Perm ((granted pre).map PluginInfo.scan)
  registered : ∀ pre info, pre ++ [.registerPlugin info] <+: ops →
    ((registerPlugin (after pre) info).1 = true ↔ ¬ Used pre info.name)

/-! ## One call -/

section calls
variable {r : Registry F S} {ops : List (Op F S)}

theorem registerPlugin_of_contains {info : PluginInfo F S} (h : r.contains info.name = true) :
    registerPlugin r info = (false, r) := if_pos h

theorem registerPlugin_of_not_contains {info : PluginInfo F S}
    (h : r.contains info.name = false) :
    registerPlugin r info = (true, r.insert info.name info) :=
  if_neg (Bool.eq_false_iff.mp h)

/-- A name that is there is looked up, and nothing more. -/
theorem create_of_contains {plugin : String} (h : r.contains plugin = true) :
    ∃ info, r[plugin]? = some info ∧ create r plugin = (info.create, r) := by
  rw [Std.TreeMap.contains_eq_isSome_getElem?] at h
  obtain ⟨info, hinfo⟩ := Option.isSome_iff_exists.mp h
  refine ⟨info, hinfo, ?_⟩
  simp only [create, index, hinfo]

theorem after_concat (ops : List (Op F S)) (op : Op F S) :
    after (ops ++ [op]) = ((registry F S).step (after ops) op).1 := by
  rw [after, Mealy.state_append]
  rfl

theorem granted_concat (ops : List (Op F S)) (op : Op F S) :
    granted (ops ++ [op]) =
      granted ops ++ ((registry F S).step (after ops) op).2.filterMap Effect.granted := by
  rw [granted, Mealy.trace_append, List.filterMap_append, Mealy.trace_cons, Mealy.trace_nil,
    List.append_nil]
  rfl

theorem granted_concat_registerPlugin (ops : List (Op F S)) (info : PluginInfo F S) :
    granted (ops ++ [.registerPlugin info]) =
      granted ops ++ if (registerPlugin (after ops) info).1 then [info] else [] := by
  rw [granted_concat]
  cases hok : (registerPlugin (after ops) info).1 <;> simp [registry, hok, Effect.granted]

theorem granted_concat_create (ops : List (Op F S)) (plugin channel : String) :
    granted (ops ++ [.create plugin channel]) = granted ops := by
  rw [granted_concat]
  simp [registry, Effect.granted]

theorem granted_concat_availableChannels (ops : List (Op F S)) :
    granted (ops ++ [.availableChannels]) = granted ops := by
  have hnone : ((scans (after ops)).map Effect.scanned).filterMap
      (Effect.granted : Effect F S → _) = [] := by
    rw [List.filterMap_map, List.filterMap_eq_nil_iff]
    exact fun _ _ => rfl
  rw [granted_concat]
  simp only [registry, hnone, List.append_nil]

theorem used_concat {op : Op F S} {name : String} :
    Used (ops ++ [op]) name ↔
      Used ops name ∨ ∃ info, op = .registerPlugin info ∧ info.name = name := by
  constructor
  · rintro ⟨info, hmem, hname⟩
    obtain hold | hnew := List.mem_append.mp hmem
    · exact .inl ⟨info, hold, hname⟩
    · exact .inr ⟨info, (List.mem_singleton.mp hnew).symm, hname⟩
  · rintro (⟨info, hold, hname⟩ | ⟨info, rfl, hname⟩)
    · exact ⟨info, List.mem_append_left _ hold, hname⟩
    · exact ⟨info, by simp, hname⟩

/-- A plugin that was granted was registered. -/
theorem used_of_mem_granted {info : PluginInfo F S} (h : info ∈ granted ops) :
    Used ops info.name := by
  induction ops using List.reverseRecOn with
  | nil => cases h
  | append_singleton ops op ih =>
      rw [used_concat]
      cases op with
      | registerPlugin info' =>
          rw [granted_concat_registerPlugin] at h
          obtain hold | hnew := List.mem_append.mp h
          · exact .inl (ih hold)
          · split_ifs at hnew
            · exact .inr ⟨info', rfl, by rw [List.mem_singleton.mp hnew]⟩
            · cases hnew
      | create plugin channel =>
          rw [granted_concat_create] at h
          exact .inl (ih h)
      | availableChannels =>
          rw [granted_concat_availableChannels] at h
          exact .inl (ih h)

end calls

/-! ## The invariant -/

/-- The entries are the plugins that were granted, and the names those that were used. -/
structure Kept (ops : List (Op F S)) : Prop where
  entries : (after ops).toList.Perm ((granted ops).map fun info => (info.name, info))
  names : ∀ name, (after ops).contains name = true ↔ Used ops name

theorem kept_nil : Kept ([] : List (Op F S)) where
  entries := List.Perm.nil
  names name := by
    change (∅ : Registry F S).contains name = true ↔ _
    simp [Used]

section invariant
variable {ops : List (Op F S)}

theorem Kept.getElem?_eq_some_iff (H : Kept ops) {name : String} {info : PluginInfo F S} :
    (after ops)[name]? = some info ↔ info ∈ granted ops ∧ info.name = name := by
  rw [← Std.TreeMap.mem_toList_iff_getElem?_eq_some, H.entries.mem_iff, List.mem_map]
  constructor
  · rintro ⟨info', hmem, heq⟩
    cases heq
    exact ⟨hmem, rfl⟩
  · rintro ⟨hmem, rfl⟩
    exact ⟨info, hmem, rfl⟩

/-- A call that changes nothing, and uses no other name. -/
theorem Kept.same (H : Kept ops) {op : Op F S} (hafter : after (ops ++ [op]) = after ops)
    (hgranted : granted (ops ++ [op]) = granted ops)
    (hused : ∀ name, Used (ops ++ [op]) name → Used ops name) : Kept (ops ++ [op]) where
  entries := by
    rw [hafter, hgranted]
    exact H.entries
  names name := by
    rw [hafter, H.names]
    exact ⟨fun h => used_concat.mpr (.inl h), hused name⟩

theorem Kept.registerPlugin (H : Kept ops) (info : PluginInfo F S) :
    Kept (ops ++ [.registerPlugin info]) := by
  cases hthere : (after ops).contains info.name with
  | true =>
      have hstep := registerPlugin_of_contains hthere
      refine H.same ?_ ?_ ?_
      · rw [after_concat]
        simp only [registry, hstep]
      · rw [granted_concat_registerPlugin, hstep, if_neg Bool.false_ne_true, List.append_nil]
      · intro name hused
        obtain hold | ⟨info', heq, rfl⟩ := used_concat.mp hused
        · exact hold
        · cases heq
          exact (H.names _).mp hthere
  | false =>
      have hstep := registerPlugin_of_not_contains hthere
      have hafter : after (ops ++ [.registerPlugin info]) =
          (after ops).insert info.name info := by
        rw [after_concat]
        simp only [registry, hstep]
      -- no entry has the name, so the new one replaces none
      have hothers : (after ops).toList.filter (fun entry => ¬ info.name == entry.1) =
          (after ops).toList := by
        refine List.filter_eq_self.mpr ?_
        rintro ⟨name, info'⟩ hmem
        rw [Std.TreeMap.mem_toList_iff_getElem?_eq_some] at hmem
        have hname : info.name ≠ name := by
          rintro rfl
          rw [Std.TreeMap.contains_eq_isSome_getElem?, hmem] at hthere
          cases hthere
        simpa using hname
      constructor
      · have hinsert : ((after ops).insert info.name info).toList.Perm
            ((info.name, info) :: (after ops).toList.filter fun entry => ¬ info.name == entry.1) :=
          Std.TreeMap.toList_insert_perm
        rw [hothers] at hinsert
        rw [hafter, granted_concat_registerPlugin, hstep, if_pos rfl, List.map_append]
        refine hinsert.trans ?_
        exact (H.entries.cons _).trans (List.perm_append_singleton _ _).symm
      · intro name
        rw [hafter, used_concat, Std.TreeMap.contains_insert, Bool.or_eq_true, H.names, or_comm]
        simp

/-- A call keeps it, unless it creates what no call has registered. -/
theorem Kept.concat (H : Kept ops) {op : Op F S}
    (hop : ∀ plugin channel, op = .create plugin channel → Used ops plugin) :
    Kept (ops ++ [op]) := by
  cases op with
  | registerPlugin info => exact H.registerPlugin info
  | create plugin channel =>
      have hthere := (H.names plugin).mpr (hop plugin channel rfl)
      obtain ⟨info, -, hcreate⟩ := create_of_contains hthere
      refine H.same ?_ (granted_concat_create ops plugin channel) ?_
      · rw [after_concat]
        simp only [registry, hcreate]
      · intro name hused
        simpa using used_concat.mp hused
  | availableChannels =>
      refine H.same (after_concat ops _) (granted_concat_availableChannels ops) ?_
      intro name hused
      simpa using used_concat.mp hused

end invariant

/-! ## Runs -/

/-- Every `create` of the calls names a plugin that was registered before it. -/
def CreatesRegistered (ops : List (Op F S)) : Prop :=
  ∀ pre plugin channel, pre ++ [.create plugin channel] <+: ops → Used pre plugin

theorem CreatesRegistered.kept {ops : List (Op F S)} (h : CreatesRegistered ops)
    {pre : List (Op F S)} (hpre : pre <+: ops) : Kept pre := by
  induction pre using List.reverseRecOn with
  | nil => exact kept_nil
  | append_singleton pre op ih =>
      refine (ih ((List.prefix_append _ _).trans hpre)).concat ?_
      rintro plugin channel rfl
      exact h pre plugin channel hpre

/-- **When the registry is what was registered.** The law holds of a list of calls just when
each `create` in it names a plugin that an earlier `registerPlugin` named. -/
theorem lawful_iff (ops : List (Op F S)) : Lawful ops ↔ CreatesRegistered ops := by
  constructor
  · intro h pre plugin channel hpre
    obtain ⟨⟨info, hmem, rfl, -⟩, -⟩ := h.factories pre plugin channel hpre
    exact used_of_mem_granted hmem
  · intro h
    have hkept : ∀ pre (op : Op F S), pre ++ [op] <+: ops → Kept pre :=
      fun pre op hpre => h.kept ((List.prefix_append _ _).trans hpre)
    refine ⟨?_, ?_, ?_, ?_⟩
    · intro pre hpre name info hentry
      exact (h.kept hpre).getElem?_eq_some_iff.mp hentry
    · intro pre plugin channel hpre
      have H := hkept pre _ hpre
      obtain ⟨info, hinfo, hcreate⟩ :=
        create_of_contains ((H.names plugin).mpr (h pre plugin channel hpre))
      obtain ⟨hmem, hname⟩ := H.getElem?_eq_some_iff.mp hinfo
      rw [hcreate]
      exact ⟨⟨info, hmem, hname, rfl⟩, fun _ => rfl⟩
    · intro pre hpre
      have hscans := (hkept pre _ hpre).entries.map fun entry => entry.2.scan
      rwa [List.map_map] at hscans
    · intro pre info hpre
      rw [← (hkept pre _ hpre).names]
      cases hthere : (after pre).contains info.name with
      | true =>
          rw [registerPlugin_of_contains hthere]
          simp
      | false =>
          rw [registerPlugin_of_not_contains hthere]
          simp

/-- In a lawful run, `availableChannels` returns what the registered scan functions return. -/
theorem Lawful.channels {ops : List (Op F S)} (h : Lawful ops) {pre : List (Op F S)}
    (hpre : pre ++ [.availableChannels] <+: ops) (probe : Option S → List CanInterfaceInfo) :
    (availableChannels probe (after pre)).Perm
      ((granted pre).flatMap fun info => probe info.scan) := by
  have hperm := (h.scans pre hpre).flatMap_right probe
  rwa [List.flatMap_map] at hperm

/-- A plugin named `x`. -/
def pluginX : PluginInfo Unit Unit := { name := "x", create := some (), scan := some () }

/-- A name that is created, and then registered. -/
def createThenRegister : List (Op Unit Unit) := [.create "x" "c", .registerPlugin pluginX]

/-- A pointer that was never initialized is called, and the plugin is refused; the scan of
the name's entry is no function either. -/
theorem lawful_fails :
    (create (after (createThenRegister.take 0)) "x").1 = none ∧
      ¬ Used (createThenRegister.take 1) pluginX.name ∧
      (registerPlugin (after (createThenRegister.take 1)) pluginX).1 = false ∧
      scans (after createThenRegister) = [none] ∧ ¬ Lawful createThenRegister := by
  refine ⟨rfl, ?_, by decide, by decide, ?_⟩
  · rintro ⟨info, hmem, -⟩
    cases List.mem_singleton.mp hmem
  · intro h
    obtain ⟨⟨info, hmem, -⟩, -⟩ := h.factories [] "x" "c" ⟨_, rfl⟩
    exact List.not_mem_nil hmem

end DPFlow.CanBus
