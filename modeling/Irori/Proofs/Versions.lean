import Irori.Proofs.JsonText
import Irori.Sample

/-!
# What a version says of a flow

Two flows with the same canonical JSON are named alike, run in the same mode and have the same
nodes; their wires are the same up to their order.
-/

namespace Irori.Proofs

open Irori

def present (fields : List (String × Option Json)) : List (String × Json) :=
  fields.flatMap fun (key, value) => optional key value

lemma lookup_optional (key k : String) (value : Option Json) :
    (optional key value).lookup k = if k = key then value else none := by
  cases value with
  | none => simp [optional]
  | some value =>
    simp only [optional, Option.map_some, Option.toList_some, List.lookup_cons, List.lookup_nil]
    by_cases h : k = key
    · simp [h]
    · simp [h, beq_false_of_ne h]

lemma lookup_present (fields : List (String × Option Json)) (k : String)
    (hnodup : (fields.map Prod.fst).Nodup) :
    (present fields).lookup k = (fields.lookup k).join := by
  induction fields with
  | nil => rfl
  | cons field fields ih =>
    obtain ⟨key, value⟩ := field
    rw [List.map_cons, List.nodup_cons] at hnodup
    have hrest : (present fields).lookup k = (fields.lookup k).join := ih hnodup.2
    rw [present, List.flatMap_cons, List.lookup_append, lookup_optional, List.lookup_cons]
    change (if k = key then value else none).or ((present fields).lookup k) = _
    rw [hrest]
    by_cases h : k = key
    · subst h
      have hnone : fields.lookup k = none := by
        rw [List.lookup_eq_none_iff]
        intro field hfield
        rw [bne_iff_ne]
        exact fun hkey => hnodup.1 (List.mem_map.mpr ⟨_, hfield, hkey.symm⟩)
      simp [hnone]
    · simp [h, beq_false_of_ne h]

lemma lookup_eq_some {l : List (String × Json)} (hnodup : (l.map Prod.fst).Nodup) {k : String}
    {v : Json} : l.lookup k = some v ↔ (k, v) ∈ l := by
  induction l with
  | nil => simp
  | cons entry l ih =>
    obtain ⟨key, value⟩ := entry
    rw [List.map_cons, List.nodup_cons] at hnodup
    rw [List.lookup_cons, List.mem_cons]
    by_cases h : k = key
    · subst h
      have hout : (k, v) ∉ l := fun hin => hnodup.1 (List.mem_map.mpr ⟨_, hin, rfl⟩)
      simp [hout, eq_comm]
    · simp [h, beq_false_of_ne h, ih hnodup.2]

lemma lookup_perm {l l' : List (String × Json)} (hperm : l.Perm l')
    (hnodup : (l.map Prod.fst).Nodup) (k : String) : l.lookup k = l'.lookup k := by
  have hnodup' : (l'.map Prod.fst).Nodup := (hperm.map Prod.fst).nodup_iff.mp hnodup
  refine Option.ext fun v => ?_
  rw [lookup_eq_some hnodup, lookup_eq_some hnodup', hperm.mem_iff]

lemma sortKeysEntries_eq_map (entries : List (String × Json)) :
    Json.sortKeysEntries entries = entries.map fun (key, value) => (key, value.sortKeys) := by
  induction entries with
  | nil => rfl
  | cons entry entries ih => rw [Json.sortKeysEntries, ih, List.map_cons]

lemma sortKeysItems_eq_map (items : List Json) :
    Json.sortKeysItems items = items.map Json.sortKeys := by
  induction items with
  | nil => rfl
  | cons item items ih => rw [Json.sortKeysItems, ih, List.map_cons]

lemma sortKeys_get (entries : List (String × Json)) (hnodup : (entries.map Prod.fst).Nodup)
    (k : String) : (Json.object entries).sortKeys.get? k = (entries.lookup k).map Json.sortKeys := by
  rw [Json.sortKeys, Json.get?, sortKeysEntries_eq_map]
  have hkeys : ((entries.map fun (key, value) => (key, value.sortKeys)).map Prod.fst).Nodup := by
    rw [List.map_map]
    exact hnodup
  rw [← lookup_perm (List.perm_insertionSort _ _).symm hkeys]
  refine Option.ext fun v => ?_
  rw [lookup_eq_some hkeys, List.mem_map, Option.map_eq_some_iff]
  constructor
  · rintro ⟨⟨key, value⟩, hmem, heq⟩
    simp only [Prod.mk.injEq] at heq
    exact ⟨value, (lookup_eq_some hnodup).mpr (heq.1 ▸ hmem), heq.2⟩
  · rintro ⟨value, hvalue, rfl⟩
    exact ⟨(k, value), (lookup_eq_some hnodup).mp hvalue, rfl⟩

lemma nodup_present {fields : List (String × Option Json)}
    (hnodup : (fields.map Prod.fst).Nodup) : ((present fields).map Prod.fst).Nodup := by
  refine hnodup.sublist ?_
  induction fields with
  | nil => exact List.Sublist.refl _
  | cons field fields ih =>
    obtain ⟨key, value⟩ := field
    rw [List.map_cons, List.nodup_cons] at hnodup
    rw [present, List.flatMap_cons, List.map_append, List.map_cons]
    cases value with
    | none => exact (ih hnodup.2).cons _
    | some value => exact (ih hnodup.2).cons_cons _

lemma present_inj {fields fields' : List (String × Option Json)}
    (h : (Json.object (present fields)).sortKeys = (Json.object (present fields')).sortKeys)
    (hkeys : fields.map Prod.fst = fields'.map Prod.fst) (hnodup : (fields.map Prod.fst).Nodup) :
    ∀ k : String, (fields.lookup k).join.map Json.sortKeys =
      (fields'.lookup k).join.map Json.sortKeys := by
  intro k
  have hnodup' : (fields'.map Prod.fst).Nodup := hkeys ▸ hnodup
  have hget := congrArg (Json.get? k) h
  rwa [sortKeys_get _ (nodup_present hnodup), sortKeys_get _ (nodup_present hnodup'),
    lookup_present _ _ hnodup, lookup_present _ _ hnodup'] at hget

lemma duration_inj {a b : CompactDuration} (h : a.text = b.text) : a = b := by
  obtain ⟨a, _⟩ := a
  obtain ⟨b, _⟩ := b
  simpa using h

lemma durationJson_injective : Function.Injective fun d : CompactDuration => d.toJson.sortKeys := by
  intro a b h
  simp only [CompactDuration.toJson, Json.sortKeys, Json.string.injEq] at h
  exact duration_inj h

lemma slugJson_injective {what : String} :
    Function.Injective fun s : Slug what => (jsonText s.text).sortKeys := by
  intro a b h
  simp only [jsonText, Json.sortKeys, Json.string.injEq] at h
  exact Slug.text_injective h

lemma floatJson_injective : Function.Injective fun q : ℚ => (jsonFloat q).sortKeys := by
  intro a b h
  simpa [jsonFloat, Json.sortKeys] using h

lemma typedJson_injective : Function.Injective fun v : TypedValue => v.toJson.sortKeys := by
  intro a b h
  cases a <;> cases b <;> simp_all [TypedValue.toJson, Json.sortKeys]

lemma valuesJson_injective : Function.Injective fun v : Values => v.toJson.sortKeys := by
  intro a b h
  cases a with
  | one a =>
    cases b with
    | one b => exact congrArg Values.one (typedJson_injective h)
    | any bs => cases a <;> simp [Values.toJson, TypedValue.toJson, Json.sortKeys] at h
  | any as =>
    cases b with
    | one b => cases b <;> simp [Values.toJson, TypedValue.toJson, Json.sortKeys] at h
    | any bs =>
      simp only [Values.toJson, Json.sortKeys, sortKeysItems_eq_map, List.map_map,
        Json.array.injEq] at h
      exact congrArg Values.any (List.map_injective_iff.mpr typedJson_injective h)

lemma option_inj {α : Type} {f : α → Json} (hf : Function.Injective fun a => (f a).sortKeys)
    {a b : Option α} (h : (a.map f).map Json.sortKeys = (b.map f).map Json.sortKeys) : a = b := by
  rw [Option.map_map, Option.map_map] at h
  exact Option.map_injective hf h

def stateFields (entity : EntityId) (field : Option ObjectId) (from_ to_ : Option Values)
    (above below : Option ℚ) (hold : Option CompactDuration) : List (String × Option Json) :=
  [("type", some (.string "state")), ("entity", some (.string entity.text)),
    ("field", field.map (jsonText ·.text)), ("from", from_.map Values.toJson),
    ("to", to_.map Values.toJson), ("above", above.map jsonFloat), ("below", below.map jsonFloat),
    ("for", hold.map CompactDuration.toJson)]

lemma stateFields_inj {entity entity' : EntityId} {field field' : Option ObjectId}
    {from_ from' to_ to' : Option Values} {above above' below below' : Option ℚ}
    {hold hold' : Option CompactDuration}
    (h : (Json.object (present (stateFields entity field from_ to_ above below hold))).sortKeys =
      (Json.object (present (stateFields entity' field' from' to' above' below' hold'))).sortKeys) :
    Trigger.state entity field from_ to_ above below hold =
      .state entity' field' from' to' above' below' hold' := by
  have hnodup :
      ((stateFields entity field from_ to_ above below hold).map Prod.fst).Nodup := by
    change ["type", "entity", "field", "from", "to", "above", "below", "for"].Nodup
    decide
  have hfields := present_inj h rfl hnodup
  have hentity := hfields "entity"
  have hfield := hfields "field"
  have hfrom := hfields "from"
  have hto := hfields "to"
  have habove := hfields "above"
  have hbelow := hfields "below"
  have hhold := hfields "for"
  simp only [stateFields, List.lookup_cons, String.reduceBEq, Option.join_some, Option.map_some,
    Json.sortKeys, Option.some.injEq, Json.string.injEq] at hentity
  simp only [stateFields, List.lookup_cons, String.reduceBEq, Option.join_some] at hfield hfrom hto
  simp only [stateFields, List.lookup_cons, String.reduceBEq, Option.join_some] at habove hbelow
  simp only [stateFields, List.lookup_cons, String.reduceBEq, Option.join_some] at hhold
  rw [EntityId.text_injective hentity, option_inj slugJson_injective hfield,
    option_inj valuesJson_injective hfrom, option_inj valuesJson_injective hto,
    option_inj floatJson_injective habove, option_inj floatJson_injective hbelow,
    option_inj durationJson_injective hhold]

def triggerFields : Trigger → List (String × Option Json)
  | .state entity field from_ to_ above below hold =>
    stateFields entity field from_ to_ above below hold
  | .time at_ cron weekday =>
    [("type", some (.string "time")), ("at", at_.map jsonText), ("cron", cron.map jsonText),
      ("weekday", weekday.map fun days => .array (days.map Weekday.toJson))]
  | .sun moment offset =>
    [("type", some (.string "sun")), ("event", some (.string moment.text)),
      ("offset", offset.map CompactDuration.toJson)]
  | .event name data =>
    [("type", some (.string "event")), ("event", some (.string name)),
      ("data", data.map fun data => .object (data.map fun (k, v) => (k.text, v)))]
  | .startup => [("type", some (.string "startup"))]

lemma trigger_toJson (t : Trigger) : t.toJson = .object (present (triggerFields t)) := by
  cases t <;> simp [Trigger.toJson, triggerFields, stateFields, present, optional]

lemma nodup_triggerFields (t : Trigger) : ((triggerFields t).map Prod.fst).Nodup := by
  cases t <;> simp [triggerFields, stateFields]

lemma stateTrigger_inj {entity : EntityId} {field : Option ObjectId} {from_ to_ : Option Values}
    {above below : Option ℚ} {hold : Option CompactDuration} {t : Trigger}
    (h : t.toJson.sortKeys =
      (Trigger.state entity field from_ to_ above below hold).toJson.sortKeys) :
    t = .state entity field from_ to_ above below hold := by
  cases t with
  | state _ _ _ _ _ _ _ =>
    rw [trigger_toJson, trigger_toJson] at h
    exact stateFields_inj h
  | _ =>
    rw [trigger_toJson, trigger_toJson] at h
    have htype := congrArg (Json.get? "type") h
    rw [sortKeys_get _ (nodup_present (nodup_triggerFields _)),
      sortKeys_get _ (nodup_present (nodup_triggerFields _)),
      lookup_present _ _ (nodup_triggerFields _), lookup_present _ _ (nodup_triggerFields _)] at htype
    simp [triggerFields, stateFields, Json.sortKeys] at htype

def nodeFields : Node → List (String × Option Json)
  | .trigger t => [("type", some (.string "trigger")), ("trigger", some t.toJson)]
  | .gate condition =>
    [("type", some (.string "gate")), ("condition", some condition.toJson)]
  | .switch cases =>
    [("type", some (.string "switch")), ("cases", some (.array (Condition.toJsons cases)))]
  | .call service entity data =>
    [("type", some (.string "call")), ("service", some (.string service.display)),
      ("entity", some (.string entity.text)),
      ("data", data.map fun data => .object (data.toList.map fun (k, v) => (k, v.toJson)))]
  | .set name expr =>
    [("type", some (.string "set")), ("name", some (.string name.text)), ("expr", some expr.toJson)]
  | .delay hold => [("type", some (.string "delay")), ("for", some hold.toJson)]
  | .wait level timeout =>
    [("type", some (.string "wait")), ("until", some level.toJson), ("timeout", some timeout.toJson)]
  | .join mode timeout =>
    [("type", some (.string "join")),
      ("mode", some (.string (match mode with | .all => "all" | .first => "first"))),
      ("timeout", timeout.map CompactDuration.toJson)]
  | .stop reason => [("type", some (.string "stop")), ("reason", reason.map jsonText)]

lemma node_toJson (n : Node) : n.toJson = .object (present (nodeFields n)) := by
  cases n with
  | join mode timeout => cases mode <;> simp [Node.toJson, nodeFields, present, optional]
  | _ => simp [Node.toJson, nodeFields, present, optional]

lemma nodup_nodeFields (n : Node) : ((nodeFields n).map Prod.fst).Nodup := by
  cases n <;> simp [nodeFields]

lemma node_get (n : Node) (k : String) :
    n.toJson.sortKeys.get? k = ((nodeFields n).lookup k).join.map Json.sortKeys := by
  rw [node_toJson, sortKeys_get _ (nodup_present (nodup_nodeFields n)),
    lookup_present _ _ (nodup_nodeFields n)]

lemma node_type (n : Node) : n.toJson.sortKeys.get? "type" = some (.string n.kind) := by
  rw [node_get]
  cases n <;> rfl

lemma triggerNode_inj {n : Node} {t : Trigger}
    (h : n.toJson.sortKeys = (Node.trigger t).toJson.sortKeys) :
    ∃ t' : Trigger, n = .trigger t' ∧ t'.toJson.sortKeys = t.toJson.sortKeys := by
  have htype := congrArg (Json.get? "type") h
  rw [node_type, node_type, Option.some.injEq, Json.string.injEq] at htype
  cases n with
  | trigger t' =>
    have htrigger := congrArg (Json.get? "trigger") h
    rw [node_get, node_get] at htrigger
    simp only [nodeFields, List.lookup_cons, String.reduceBEq, beq_self_eq_true, Option.join_some,
      Option.map_some, Option.some.injEq] at htrigger
    exact ⟨t', rfl, htrigger⟩
  | _ => simp [Node.kind] at htype

def nodesJson (flow : Flow) : Json :=
  .object (flow.nodes.toList.map fun (id, node) => (id.text, node.toJson))

lemma nodesJson_get (flow : Flow) (id : NodeId) : (nodesJson flow).sortKeys.get? id.text =
    (flow.nodes[id]?).map fun node => node.toJson.sortKeys := by
  have hnodup : ((flow.nodes.toList.map fun (id, node) => (id.text, node.toJson)).map
      Prod.fst).Nodup := by
    have hkeys : (flow.nodes.toList.map Prod.fst).Nodup := by
      rw [Std.ExtTreeMap.map_fst_toList_eq_keys]
      exact (Std.ExtTreeMap.distinct_keys (t := flow.nodes)).imp fun hne => by simpa using hne
    have htexts := hkeys.map Slug.text_injective
    rwa [List.map_map] at htexts ⊢
  rw [nodesJson, sortKeys_get _ hnodup]
  refine Option.ext fun v => ?_
  rw [Option.map_eq_some_iff, Option.map_eq_some_iff]
  constructor
  · rintro ⟨value, hvalue, rfl⟩
    obtain ⟨⟨id', node⟩, hmem, heq⟩ := List.mem_map.mp ((lookup_eq_some hnodup).mp hvalue)
    rw [Prod.mk.injEq] at heq
    obtain rfl := Slug.text_injective heq.1
    exact ⟨node, Std.ExtTreeMap.mem_toList_iff_getElem?_eq_some.mp hmem, by rw [heq.2]⟩
  · rintro ⟨node, hnode, rfl⟩
    refine ⟨node.toJson, (lookup_eq_some hnodup).mpr ?_, rfl⟩
    exact List.mem_map.mpr
      ⟨(id, node), Std.ExtTreeMap.mem_toList_iff_getElem?_eq_some.mpr hnode, rfl⟩

def sortedWires (env : Env) (flow : Flow) : List Json :=
  (flow.wires.map Wire.toJson).insertionSort fun a b => env.showJson a ≤ env.showJson b

/-- The fields of a flow's object that its version is the hash of. -/
def flowFields (env : Env) (flow : Flow) : List (String × Option Json) :=
  [("id", some (.string flow.id.text)), ("name", some (.string flow.name)),
    ("description", flow.description.map jsonText),
    ("mode", if flow.mode.isSingle then none else some flow.mode.toJson),
    ("nodes", some (nodesJson flow)),
    ("wires", if (sortedWires env flow).isEmpty then none else some (.array (sortedWires env flow)))]

lemma flow_entries (env : Env) (flow : Flow) :
    flow.entries (sortedWires env flow) = present (flowFields env flow) := by
  unfold Flow.entries flowFields present nodesJson
  cases flow.mode.isSingle <;> cases (sortedWires env flow).isEmpty <;> simp [optional]

lemma canonicalJson_inj {env : Env} (hnumbers : NumberTexts env.showNumber) {f g : Flow}
    (h : f.canonicalJson env = g.canonicalJson env) (k : String) :
    ((flowFields env f).lookup k).join.map Json.sortKeys =
      ((flowFields env g).lookup k).join.map Json.sortKeys := by
  have hjson := showJson_injective hnumbers h
  rw [← sortedWires, ← sortedWires, flow_entries, flow_entries] at hjson
  refine present_inj hjson rfl ?_ k
  change ["id", "name", "description", "mode", "nodes", "wires"].Nodup
  decide

def limitJson (type : String) (max : UInt8) : Json :=
  .object [("type", .string type), ("max", .number (.int max.toNat))]

lemma limitJson_inj {type type' : String} {max max' : UInt8}
    (h : (limitJson type max).sortKeys = (limitJson type' max').sortKeys) :
    type = type' ∧ max = max' := by
  have hget : ∀ (type : String) (max : UInt8) (k : String), (limitJson type max).sortKeys.get? k =
      ([("type", Json.string type), ("max", .number (.int max.toNat))].lookup k).map
        Json.sortKeys := fun _ _ k => sortKeys_get _ (by simp) k
  have htype := congrArg (Json.get? "type") h
  have hmax := congrArg (Json.get? "max") h
  rw [hget, hget] at htype hmax
  simp [List.lookup_cons, Json.sortKeys] at htype hmax
  exact ⟨htype, UInt8.toNat_inj.mp hmax⟩

lemma modeJson_inj {m m' : Mode} (h : (if m.isSingle then none else some m.toJson).map Json.sortKeys =
    (if m'.isSingle then none else some m'.toJson).map Json.sortKeys) : m = m' := by
  have hsingle : ∀ {m : Mode}, m.isSingle = true → m = .named .single := by
    rintro (⟨⟨⟩⟩ | ⟨⟨⟩⟩) <;> simp [Mode.isSingle]
  by_cases hm : m.isSingle <;> by_cases hm' : m'.isSingle
  · rw [hsingle hm, hsingle hm']
  · simp [hm, hm'] at h
  · simp [hm, hm'] at h
  · simp only [hm, hm', Bool.false_eq_true, if_false, Option.map_some, Option.some.injEq] at h
    match m, m' with
    | .named .single, _ | _, .named .single => simp [Mode.isSingle] at hm hm'
    | .named .restart, .named .restart => rfl
    | .named .restart, .limited (.queued _) | .named .restart, .limited (.parallel _)
    | .limited (.queued _), .named .restart | .limited (.parallel _), .named .restart =>
      simp [Mode.toJson, Json.sortKeys] at h
    | .limited (.queued _), .limited (.queued _) => rw [(limitJson_inj h).2]
    | .limited (.parallel _), .limited (.parallel _) => rw [(limitJson_inj h).2]
    | .limited (.queued _), .limited (.parallel _) | .limited (.parallel _), .limited (.queued _) =>
      have htype := (limitJson_inj h).1
      simp at htype

section

variable {env : Env} (hnumbers : NumberTexts env.showNumber) {f g : Flow}
  (h : f.canonicalJson env = g.canonicalJson env)

include hnumbers h

theorem sameNodes (id : NodeId) : (f.nodes[id]?).map (fun node => node.toJson.sortKeys) =
    (g.nodes[id]?).map fun node => node.toJson.sortKeys := by
  have hnodes := canonicalJson_inj hnumbers h "nodes"
  simp only [flowFields, List.lookup_cons, String.reduceBEq, Option.join_some, Option.map_some,
    Option.some.injEq] at hnodes
  rw [← nodesJson_get, ← nodesJson_get, hnodes]

theorem sameMode : f.mode = g.mode := by
  have hmode := canonicalJson_inj hnumbers h "mode"
  simp only [flowFields, List.lookup_cons, String.reduceBEq, Option.join_some] at hmode
  exact modeJson_inj hmode

theorem sameStateTrigger {node : NodeId} {entity : EntityId} {field : Option ObjectId}
    {from_ to_ : Option Values} {above below : Option ℚ} {hold : Option CompactDuration}
    (hnode : f.nodes[node]? =
      some (.trigger (.state entity field from_ to_ above below hold))) :
    g.nodes[node]? = some (.trigger (.state entity field from_ to_ above below hold)) := by
  have hsame := sameNodes hnumbers h node
  rw [hnode, Option.map_some] at hsame
  obtain ⟨n, hn, hjson⟩ := Option.map_eq_some_iff.mp hsame.symm
  obtain ⟨t, rfl, htrigger⟩ := triggerNode_inj hjson
  rw [hn, stateTrigger_inj htrigger]

end

/-- SHA-256 tells the flows there are apart, as far as their canonical JSON does. -/
def Collisionless (env : Env) (A : Arm → Prop) : Prop :=
  ∀ a b : Arm, A a → A b → a.flow.version env = b.flow.version env →
    a.flow.canonicalJson env = b.flow.canonicalJson env

def intText (n : Int) : List Char :=
  if n < 0 then '-' :: Nat.toDigits 10 n.natAbs else Nat.toDigits 10 n.natAbs

def readInt : List Char → Int
  | '-' :: digits => -(Nat.ofDigitChars 10 digits 0 : Int)
  | digits => Nat.ofDigitChars 10 digits 0

def numberText : Number → String
  | .int n => String.ofList (intText n)
  | .float q => String.ofList (intText q.num ++ 'e' :: intText q.den)

lemma digits_plain {n : Nat} {c : Char} (h : c ∈ Nat.toDigits 10 n) :
    c ∈ numberChars ∧ c ≠ 'e' ∧ c ≠ '-' := by
  have hdigit := Nat.isDigit_of_mem_toDigits (by decide) (by decide) h
  have hall : ∀ d : Nat, d < 58 → 48 ≤ d → Char.ofNat d ∈ numberChars ∧ Char.ofNat d ≠ 'e' ∧
      Char.ofNat d ≠ '-' := by decide
  rw [Char.isDigit, Bool.and_eq_true, decide_eq_true_eq, decide_eq_true_eq] at hdigit
  have hrange : 48 ≤ c.toNat ∧ c.toNat < 58 := by
    have hlow := UInt32.le_iff_toNat_le.mp hdigit.1
    have hhigh := UInt32.le_iff_toNat_le.mp hdigit.2
    change 48 ≤ c.toNat at hlow
    change c.toNat ≤ 57 at hhigh
    omega
  have hc := hall c.toNat hrange.2 hrange.1
  rwa [Char.ofNat_toNat] at hc

lemma intText_plain {n : Int} {c : Char} (h : c ∈ intText n) : c ∈ numberChars ∧ c ≠ 'e' := by
  unfold intText at h
  split at h
  · rcases List.mem_cons.mp h with rfl | h
    · decide
    · exact ⟨(digits_plain h).1, (digits_plain h).2.1⟩
  · exact ⟨(digits_plain h).1, (digits_plain h).2.1⟩

lemma readInt_intText (n : Int) : readInt (intText n) = n := by
  unfold intText
  split
  · next hneg =>
    rw [readInt, Nat.ofDigitChars_ten_toDigits]
    omega
  · next hpos =>
    have hvalue : (Nat.ofDigitChars 10 (Nat.toDigits 10 n.natAbs) 0 : Int) = n := by
      rw [Nat.ofDigitChars_ten_toDigits]
      omega
    unfold readInt
    split
    · next digits hdigits =>
      exact absurd rfl (digits_plain (n := n.natAbs) (by rw [hdigits]; exact List.mem_cons_self)).2.2
    · exact hvalue

lemma intText_injective : Function.Injective intText :=
  Function.LeftInverse.injective readInt_intText

lemma intText_ne_nil (n : Int) : intText n ≠ [] := by
  unfold intText
  split
  · simp
  · exact Nat.toDigits_ne_nil

lemma split_at_e {as bs u v : List Char} (ha : 'e' ∉ as) (hb : 'e' ∉ bs)
    (h : as ++ 'e' :: u = bs ++ 'e' :: v) : as = bs ∧ u = v := by
  induction as generalizing bs with
  | nil =>
    cases bs with
    | nil => simpa using h
    | cons b bs =>
      rw [List.nil_append, List.cons_append, List.cons.injEq] at h
      exact absurd (h.1 ▸ List.mem_cons_self) hb
  | cons a as ih =>
    cases bs with
    | nil =>
      rw [List.nil_append, List.cons_append, List.cons.injEq] at h
      exact absurd (h.1 ▸ List.mem_cons_self) ha
    | cons b bs =>
      rw [List.cons_append, List.cons_append, List.cons.injEq] at h
      obtain ⟨rfl, hends⟩ := ih (fun he => ha (List.mem_cons_of_mem _ he))
        (fun he => hb (List.mem_cons_of_mem _ he)) h.2
      exact ⟨by rw [h.1], hends⟩

theorem numberTexts_numberText : NumberTexts numberText where
  plain n c hc := by
    cases n with
    | int n =>
      rw [numberText, String.toList_ofList] at hc
      exact (intText_plain hc).1
    | float q =>
      rw [numberText, String.toList_ofList, List.mem_append, List.mem_cons] at hc
      rcases hc with hc | rfl | hc
      · exact (intText_plain hc).1
      · decide
      · exact (intText_plain hc).1
  said n := by
    cases n with
    | int n =>
      rw [numberText, String.toList_ofList]
      exact intText_ne_nil n
    | float q =>
      rw [numberText, String.toList_ofList]
      simp
  own := by
    have hplain : ∀ n : Int, 'e' ∉ intText n := fun n he => (intText_plain he).2 rfl
    intro m n h
    cases m with
    | int m =>
      cases n with
      | int n => rw [intText_injective (String.ofList_inj.mp h)]
      | float q =>
        refine absurd ?_ (hplain m)
        rw [String.ofList_inj.mp h]
        simp
    | float p =>
      cases n with
      | int n =>
        refine absurd ?_ (hplain n)
        rw [← String.ofList_inj.mp h]
        simp
      | float q =>
        obtain ⟨hnum, hden⟩ := split_at_e (hplain _) (hplain _) (String.ofList_inj.mp h)
        have hnum' := intText_injective hnum
        have hden' : p.den = q.den := by exact_mod_cast intText_injective hden
        rw [Rat.ext hnum' hden']

def plainEnv (known : List (String × Expr)) : Env :=
  { Sample.env known with showNumber := numberText }

end Irori.Proofs
