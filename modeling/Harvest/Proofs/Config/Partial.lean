import Harvest.Config.Reader
import Harvest.Proofs.Json.Record
import Mathlib

/-! A configuration file that names only some of the values. Those that it does not name have their
defaults, wherever the others stand and whatever else the file holds. But a group of timeouts, or a
retry policy, that is named in part is filled up with the defaults of its kind: for relays behind a
proxy, and for the sink, these are not the defaults of the configuration. -/

namespace Harvest

open Json (Draft Slot)

namespace Json.Draft

/-- What an object has under a name. -/
def member? (name : String) : Draft → Option Draft
  | .obj members => members.lookup (some name)
  | _ => none

/-- The value that an object has under a name, or else another one. -/
def valueOr (read : Draft → Option α) (d : Draft) (name : String) (other : α) : α :=
  ((d.member? name).bind read).getD other

/-- What a group of values becomes of which an object has some under a name. -/
def groupOr (overlay : Draft → α → α) (d : Draft) (name : String) (other : α) : α :=
  ((d.member? name).map (overlay · other)).getD other

/-- An object that names no field of a record twice, and holds what these fields can hold. -/
structure Suits (fields : List (Slot ρ)) (members : Members) : Prop extends
    Distinct fields members where
  reads : ∀ field ∈ fields, Reads members field

theorem suits_of {fields : List (Slot ρ)} {members : Members} (base : ρ)
    (hu : ∀ field ∈ fields, field.Uniform) (hd : Distinct fields members)
    (h : ∀ field ∈ fields,
      (members.lookup (some field.name)).all (fun d => (field.set d base).isSome) = true) :
    Suits fields members :=
  ⟨hd, fun field hf => reads_of (hu field hf) base (h field hf)⟩

/-- All fields of a record are named. -/
def Whole (fields : List (Slot ρ)) (d : Draft) : Prop :=
  ∀ field ∈ fields, (d.member? field.name).isSome

end Json.Draft

/-! ## What a file asks for -/

/-- These timeouts, with the ones that a file names. -/
def Timeouts.overlay (d : Draft) (t : Timeouts) : Timeouts where
  connect := d.valueOr Config.count? "connect_ms" t.connect
  query := d.valueOr Config.count? "query_ms" t.query

/-- This policy, with what a file names of it. -/
def RetryPolicy.overlay (d : Draft) (p : RetryPolicy) : RetryPolicy where
  maxAttempts := d.valueOr (Draft.natBelow? UInt32.size) "max_attempts" p.maxAttempts
  baseDelay := d.valueOr Config.count? "base_delay_ms" p.baseDelay
  maxDelay := d.valueOr Config.count? "max_delay_ms" p.maxDelay
  multiplier := d.valueOr Draft.double? "multiplier" p.multiplier

namespace Config

/-- This configuration, with the values that a file names: all others stay, those in groups that are
named in part as well. -/
def overlay (d : Draft) (c : Config) : Config where
  cycleInterval := d.valueOr count? "cycle_interval_ms" c.cycleInterval
  cycleDeadline := d.valueOr count? "cycle_deadline_ms" c.cycleDeadline
  workers := d.valueOr count? "workers" c.workers
  sessionsPerWorker := d.valueOr count? "sessions_per_worker" c.sessionsPerWorker
  staggerMin := d.valueOr count? "stagger_min_ms" c.staggerMin
  staggerMax := d.valueOr count? "stagger_max_ms" c.staggerMax
  defaultLookback := d.valueOr count? "default_lookback_secs" c.defaultLookback
  resultCap := d.valueOr count? "result_cap" c.resultCap
  minWindow := d.valueOr count? "min_window_secs" c.minWindow
  batchSize := d.valueOr count? "batch_size" c.batchSize
  minRequestInterval := d.valueOr count? "min_request_interval_ms" c.minRequestInterval
  peerBudget := d.valueOr count? "peer_budget_ms" c.peerBudget
  direct := d.groupOr Timeouts.overlay "direct" c.direct
  proxied := d.groupOr Timeouts.overlay "proxied" c.proxied
  proxyAddr := d.valueOr (Draft.optional? Draft.text?) "proxy_addr" c.proxyAddr
  shutdownGrace := d.valueOr count? "shutdown_grace_ms" c.shutdownGrace
  queryRetry := d.groupOr RetryPolicy.overlay "query_retry" c.queryRetry
  sinkRetry := d.groupOr RetryPolicy.overlay "sink_retry" c.sinkRetry

/-- What the values of a file are put over: the defaults, but in a group that the file names the
defaults of its kind. -/
def basis (d : Draft) : Config :=
  { proxied := if (d.member? "proxied").isSome then {} else proxied {}
    sinkRetry := if (d.member? "sink_retry").isSome then {} else sinkRetry {} }

/-- A file whose values can be read, in any order and with any other members among them. Groups of
values stand in objects of their own. -/
structure Readable (members : Draft.Members) : Prop where
  values : Draft.Suits fields members
  timeouts : ∀ name ∈ ["direct", "proxied"], ∀ d, members.lookup (some name) = some d →
    ∃ inner, d = .obj inner ∧ Draft.Suits Timeouts.fields inner
  policies : ∀ name ∈ ["query_retry", "sink_retry"], ∀ d, members.lookup (some name) = some d →
    ∃ inner, d = .obj inner ∧ Draft.Suits RetryPolicy.fields inner

/-- The groups whose kind has other defaults are named wholly, or not at all. -/
def Undivided (d : Draft) : Prop :=
  (∀ group, d.member? "proxied" = some group → Draft.Whole Timeouts.fields group) ∧
    ∀ group, d.member? "sink_retry" = some group → Draft.Whole RetryPolicy.fields group

end Config

/-! ## Reading -/

/-- Where a value is named it does not matter what else it would be. -/
theorem Json.Draft.valueOr_of_named {members : Members} {name : String} {read : Draft → Option α}
    {put : α → ρ → ρ} (h : Reads members (.of name read put)) (r : ρ)
    (hn : (member? name (.obj members)).isSome) (other other' : α) :
    valueOr read (.obj members) name other =
      valueOr read (.obj members) name other' := by
  obtain ⟨d, hd⟩ := Option.isSome_iff_exists.mp hn
  obtain ⟨_, hset⟩ := Option.isSome_iff_exists.mp (h d hd r)
  obtain ⟨a, ha, -⟩ := Option.map_eq_some_iff.mp hset
  simp [valueOr, hd, ha]

theorem Timeouts.fields_commute : Timeouts.fields.Pairwise Slot.Commutes := by
  simp only [fields, List.pairwise_cons, List.forall_mem_cons]
  exact ⟨⟨Slot.commutes_of fun _ _ _ => rfl, fun _ h => by cases h⟩, fun _ h => (by cases h), .nil⟩

theorem Timeouts.fields_uniform : ∀ field ∈ fields, field.Uniform := by
  simp [fields, Slot.uniform_of]

theorem Timeouts.ofDraft?_obj {members : Draft.Members} (h : Draft.Suits fields members) :
    ofDraft? (.obj members) = some (overlay (.obj members) {}) := by
  have hreads := h.reads
  simp only [fields, List.forall_mem_cons] at hreads
  obtain ⟨hconnect, hquery, -⟩ := hreads
  show Draft.setMembers fields [] members {} = _
  rw [Draft.setMembers_eq_setNamed fields_commute (by decide) h.toDistinct
    (fun _ hn => by cases hn), fields,
    Draft.setNamed_of hconnect (·.connect) (fun _ => rfl),
    Draft.setNamed_of hquery (·.query) (fun _ => rfl)]
  rfl

/-- Where all timeouts are named it does not matter what they would be else. -/
theorem Timeouts.overlay_of_whole {members : Draft.Members} (h : Draft.Suits fields members)
    (hw : Draft.Whole fields (.obj members)) (t t' : Timeouts) :
    overlay (.obj members) t = overlay (.obj members) t' := by
  have hreads := h.reads
  simp only [Draft.Whole, fields, List.forall_mem_cons] at hreads hw
  rw [overlay, overlay, Draft.valueOr_of_named hreads.1 {} hw.1 t.connect t'.connect,
    Draft.valueOr_of_named hreads.2.1 {} hw.2.1 t.query t'.query]

theorem RetryPolicy.fields_commute : RetryPolicy.fields.Pairwise Slot.Commutes := by
  simp only [fields, List.pairwise_cons, List.forall_mem_cons, List.not_mem_nil, false_imp_iff,
    implies_true, List.Pairwise.nil, and_true]
  repeat' apply And.intro
  all_goals exact Slot.commutes_of fun _ _ _ => rfl

theorem RetryPolicy.ofDraft?_obj {members : Draft.Members} (h : Draft.Suits fields members) :
    ofDraft? (.obj members) = some (overlay (.obj members) {}) := by
  have hreads := h.reads
  simp only [fields, List.forall_mem_cons] at hreads
  obtain ⟨hattempts, hbase, hmost, hfactor, -⟩ := hreads
  show Draft.setMembers fields [] members {} = _
  rw [Draft.setMembers_eq_setNamed fields_commute (by decide) h.toDistinct
    (fun _ hn => by cases hn), fields,
    Draft.setNamed_of hattempts (·.maxAttempts) (fun _ => rfl),
    Draft.setNamed_of hbase (·.baseDelay) (fun _ => rfl),
    Draft.setNamed_of hmost (·.maxDelay) (fun _ => rfl),
    Draft.setNamed_of hfactor (·.multiplier) (fun _ => rfl)]
  rfl

/-- Where all of a policy is named it does not matter what it would be else. -/
theorem RetryPolicy.overlay_of_whole {members : Draft.Members} (h : Draft.Suits fields members)
    (hw : Draft.Whole fields (.obj members)) (p p' : RetryPolicy) :
    overlay (.obj members) p = overlay (.obj members) p' := by
  have hreads := h.reads
  simp only [Draft.Whole, fields, List.forall_mem_cons] at hreads hw
  obtain ⟨hattempts, hbase, hmost, hfactor, -⟩ := hreads
  obtain ⟨hattempts', hbase', hmost', hfactor', -⟩ := hw
  rw [overlay, overlay,
    Draft.valueOr_of_named hattempts {} hattempts' p.maxAttempts p'.maxAttempts,
    Draft.valueOr_of_named hbase {} hbase' p.baseDelay p'.baseDelay,
    Draft.valueOr_of_named hmost {} hmost' p.maxDelay p'.maxDelay,
    Draft.valueOr_of_named hfactor {} hfactor' p.multiplier p'.multiplier]

namespace Config

theorem fields_commute : fields.Pairwise Slot.Commutes := by
  simp only [fields, List.pairwise_cons, List.forall_mem_cons, List.not_mem_nil, false_imp_iff,
    implies_true, List.Pairwise.nil, and_true]
  repeat' apply And.intro
  all_goals exact Slot.commutes_of fun _ _ _ => rfl

theorem fields_uniform : ∀ field ∈ fields, field.Uniform := by
  simp [fields, Slot.uniform_of]

/-- A group that is named is put over the defaults of its kind. -/
theorem group_eq {read : Draft → Option α} {overlay : Draft → α → α} {kind : α} {d : Draft}
    {name : String} (common : α)
    (h : ∀ group, d.member? name = some group → read group = some (overlay group kind)) :
    d.valueOr read name common =
      d.groupOr overlay name (if (d.member? name).isSome then kind else common) := by
  rw [Draft.valueOr, Draft.groupOr]
  cases hg : d.member? name with
  | none => rfl
  | some group => simp [h group hg]

theorem record?_fields {members : Draft.Members} (h : Readable members) :
    Draft.record? fields {} (.obj members) =
      some (overlay (.obj members) (basis (.obj members))) := by
  have hreads := h.values.reads
  simp only [fields, List.forall_mem_cons] at hreads
  obtain ⟨h1, h2, h3, h4, h5, h6, h7, h8, h9, h10, h11, h12, h13, h14, h15, h16, h17, h18, -⟩ :=
    hreads
  have htimeouts (name : String) (hn : name ∈ ["direct", "proxied"]) (group : Draft)
      (hg : Draft.member? name (.obj members) = some group) :
      Timeouts.ofDraft? group = some (Timeouts.overlay group {}) := by
    obtain ⟨inner, rfl, hinner⟩ := h.timeouts name hn group hg
    exact Timeouts.ofDraft?_obj hinner
  have hpolicies (name : String) (hn : name ∈ ["query_retry", "sink_retry"]) (group : Draft)
      (hg : Draft.member? name (.obj members) = some group) :
      RetryPolicy.ofDraft? group = some (RetryPolicy.overlay group {}) := by
    obtain ⟨inner, rfl, hinner⟩ := h.policies name hn group hg
    exact RetryPolicy.ofDraft?_obj hinner
  have hdirect := group_eq ({} : Timeouts) (htimeouts "direct" (by simp))
  have hproxied := group_eq (proxied {}) (htimeouts "proxied" (by simp))
  have hquery := group_eq ({} : RetryPolicy) (hpolicies "query_retry" (by simp))
  have hsink := group_eq (sinkRetry {}) (hpolicies "sink_retry" (by simp))
  rw [ite_self] at hdirect hquery
  show Draft.setMembers fields [] members {} = _
  rw [Draft.setMembers_eq_setNamed fields_commute (by decide) h.values.toDistinct
    (fun _ hn => by cases hn)]
  simp only [fields, Draft.setNamed_of h1 (·.cycleInterval) (fun _ => rfl),
    Draft.setNamed_of h2 (·.cycleDeadline) (fun _ => rfl),
    Draft.setNamed_of h3 (·.workers) (fun _ => rfl),
    Draft.setNamed_of h4 (·.sessionsPerWorker) (fun _ => rfl),
    Draft.setNamed_of h5 (·.staggerMin) (fun _ => rfl),
    Draft.setNamed_of h6 (·.staggerMax) (fun _ => rfl),
    Draft.setNamed_of h7 (·.defaultLookback) (fun _ => rfl),
    Draft.setNamed_of h8 (·.resultCap) (fun _ => rfl),
    Draft.setNamed_of h9 (·.minWindow) (fun _ => rfl),
    Draft.setNamed_of h10 (·.batchSize) (fun _ => rfl),
    Draft.setNamed_of h11 (·.minRequestInterval) (fun _ => rfl),
    Draft.setNamed_of h12 (·.peerBudget) (fun _ => rfl),
    Draft.setNamed_of h13 (·.direct) (fun _ => rfl),
    Draft.setNamed_of h14 (·.proxied) (fun _ => rfl),
    Draft.setNamed_of h15 (·.proxyAddr) (fun _ => rfl),
    Draft.setNamed_of h16 (·.shutdownGrace) (fun _ => rfl),
    Draft.setNamed_of h17 (·.queryRetry) (fun _ => rfl),
    Draft.setNamed_of h18 (·.sinkRetry) (fun _ => rfl)]
  rw [overlay, basis]
  dsimp only
  rw [← hdirect, ← hproxied, ← hquery, ← hsink]
  rfl

/-- In a group that is named wholly no default is left. -/
theorem groupOr_of_whole {overlay : Draft → α → α} {d : Draft} {name : String} (kind common : α)
    (h : ∀ group, d.member? name = some group → overlay group kind = overlay group common) :
    d.groupOr overlay name (if (d.member? name).isSome then kind else common) =
      d.groupOr overlay name common := by
  rw [Draft.groupOr, Draft.groupOr]
  cases hg : d.member? name with
  | none => rfl
  | some group => simp [h group hg]

/-- A file whose groups are undivided is put over the defaults of the configuration. -/
theorem overlay_basis {members : Draft.Members} (h : Readable members)
    (hu : Undivided (.obj members)) :
    overlay (.obj members) (basis (.obj members)) = overlay (.obj members) {} := by
  have hproxied (group : Draft) (hg : Draft.member? "proxied" (.obj members) = some group) :
      Timeouts.overlay group {} = Timeouts.overlay group (proxied {}) := by
    obtain ⟨inner, rfl, hinner⟩ := h.timeouts "proxied" (by simp) group hg
    exact Timeouts.overlay_of_whole hinner (hu.1 _ hg) ..
  have hsink (group : Draft) (hg : Draft.member? "sink_retry" (.obj members) = some group) :
      RetryPolicy.overlay group {} = RetryPolicy.overlay group (sinkRetry {}) := by
    obtain ⟨inner, rfl, hinner⟩ := h.policies "sink_retry" (by simp) group hg
    exact RetryPolicy.overlay_of_whole hinner (hu.2 _ hg) ..
  rw [overlay, overlay, basis]
  dsimp only
  rw [groupOr_of_whole {} (proxied {}) hproxied, groupOr_of_whole {} (sinkRetry {}) hsink]

theorem load_of_readable {text : String} {members : Draft.Members}
    (ht : Draft.ofText? text = some (.obj members)) (h : Readable members)
    (hv : (overlay (.obj members) (basis (.obj members))).fault? = none) :
    load text = .ok (overlay (.obj members) (basis (.obj members))) := by
  rw [load, ofText?, ht, Option.bind_some, record?_fields h]
  show (validate _).map _ = _
  rw [validate, hv]
  rfl

/-- **A file changes the values that it names, and no others**, in whichever order it names them and
whatever else it holds: where the groups are undivided, all others are as in the configuration
without a file. In a group that is named in part they are as the kind of the group has them. -/
theorem load_partial {text : String} {members : Draft.Members}
    (ht : Draft.ofText? text = some (.obj members)) (h : Readable members)
    (hv : (overlay (.obj members) (basis (.obj members))).fault? = none) :
    load text = .ok (overlay (.obj members) (basis (.obj members))) ∧
      (Undivided (.obj members) → load text = .ok (overlay (.obj members) {})) := by
  have hload := load_of_readable ht h hv
  refine ⟨hload, fun hu => ?_⟩
  rw [hload, overlay_basis h hu]

/-- Something that means nothing, and a group that is named wholly. -/
theorem load_partial_scattered :
    let text :=
      "\x7b\"note\":null,\"proxied\":\x7b\"query_ms\":7,\"connect_ms\":5\x7d,\"workers\":3\x7d"
    ∃ c, load text = .ok c ∧ c.workers = 3 ∧ c.sessionsPerWorker = 32 ∧
      c.direct = ⟨10000, 15000⟩ ∧ c.proxied = ⟨5, 7⟩ ∧ c.sinkRetry.maxAttempts = 5 := by
  intro text
  let literal (digit : Char) : Draft := .num ⟨false, [digit], [], none⟩
  let proxied : Draft.Members :=
    [(some "query_ms", literal '7'), (some "connect_ms", literal '5')]
  let members : Draft.Members :=
    [(some "note", .null), (some "proxied", .obj proxied), (some "workers", literal '3')]
  have hproxied : Draft.Suits Timeouts.fields proxied := by
    refine Draft.suits_of {} Timeouts.fields_uniform ⟨by simp [proxied], by simp [proxied]⟩ ?_
    revert members proxied literal
    decide +kernel
  have hvalues : Draft.Suits fields members := by
    refine Draft.suits_of {} fields_uniform ⟨by simp [members], by simp [members]⟩ ?_
    clear hproxied
    revert members proxied literal
    decide +kernel
  have hreadable : Readable members :=
    ⟨hvalues, by simp [members, hproxied, List.lookup_cons], by simp [members, List.lookup_cons]⟩
  have hundivided : Undivided (.obj members) := by
    simp [Undivided, Draft.member?, members, List.lookup_cons, Draft.Whole, Timeouts.fields,
      Slot.of, proxied]
  have hv : (overlay (.obj members) (basis (.obj members))).fault? = none := by
    clear hundivided hreadable hvalues hproxied
    revert members proxied literal
    decide +kernel
  have htext : Draft.ofText? text = some (.obj members) := by cbv
  obtain ⟨-, hload⟩ := load_partial htext hreadable hv
  refine ⟨_, hload hundivided, ?_⟩
  clear hload htext hv hundivided hreadable hvalues hproxied
  revert members proxied literal
  decide +kernel

/-- Relays behind a proxy have 45 seconds for a query; where a file says only how long they have for
a connection, it is the 15 seconds of the others. -/
theorem load_divided :
    let text := "\x7b\"proxied\":\x7b\"connect_ms\":9\x7d\x7d"
    let literal : Draft := .num ⟨false, ['9'], [], none⟩
    let members : Draft.Members := [(some "proxied", .obj [(some "connect_ms", literal)])]
    Draft.ofText? text = some (.obj members) ∧ Readable members ∧
      (overlay (.obj members) {}).fault? = none ∧
      (overlay (.obj members) {}).proxied = ⟨9, 45000⟩ ∧
      ∃ c, load text = .ok c ∧ c.proxied = ⟨9, 15000⟩ := by
  intro text literal members
  have hproxied : Draft.Suits Timeouts.fields [(some "connect_ms", literal)] := by
    refine Draft.suits_of {} Timeouts.fields_uniform ⟨by simp, by simp⟩ ?_
    revert members literal
    decide +kernel
  have hvalues : Draft.Suits fields members := by
    refine Draft.suits_of {} fields_uniform ⟨by simp [members], by simp [members]⟩ ?_
    clear hproxied
    revert members literal
    decide +kernel
  have hreadable : Readable members :=
    ⟨hvalues, by simp [members, hproxied, List.lookup_cons], by simp [members, List.lookup_cons]⟩
  have hfaults : (overlay (.obj members) {}).fault? = none ∧
      (overlay (.obj members) {}).proxied = ⟨9, 45000⟩ ∧
      (overlay (.obj members) (basis (.obj members))).fault? = none ∧
      (overlay (.obj members) (basis (.obj members))).proxied = ⟨9, 15000⟩ := by
    clear hreadable hvalues hproxied
    revert members literal
    decide +kernel
  obtain ⟨hvalid, hexpected, hv, hfound⟩ := hfaults
  have htext : Draft.ofText? text = some (.obj members) := by cbv
  exact ⟨htext, hreadable, hvalid, hexpected, _, load_of_readable htext hreadable hv, hfound⟩

end Config

end Harvest
