import AsComponents.Algorithms
import AsComponents.Extraction
import AsComponents.RequestData

/-! `ProcessFCGI_PARAMS`: the environment of a request is the content of its
`FCGI_PARAMS` stream read as a map, whatever the order that `std::sort` gives
to pairs of one name. -/

namespace AsComponents.Server

open Protocol NameValue Algorithms Std

/-- `ProcessFCGI_PARAMS` with a sort. -/
def RequestData.processFcgiParamsBy (sort : List ByteSeqPair → List ByteSeqPair) (d : RequestData) :
    RequestData × Bool :=
  if d.fcgiParams = [] then (d, true)
  else
    match sort (extractBinaryNameValuePairs d.fcgiParams) with
    | [] => (d, false)
    | first :: rest =>
        let (env, valid) := placePairs first rest d.environmentMap
        ({ d with environmentMap := env }, valid)

/-! ## The order of names -/

theorem nameLessEqual_antisymm {p q : ByteSeqPair} (h : NameLessEqual p q) (h' : NameLessEqual q p) :
    p.1 = q.1 :=
  LawfulEqOrd.eq_of_compare (OrientedCmp.isLE_antisymm h h')

instance : IsTrans ByteSeqPair NameLessEqual := ⟨fun _ _ _ h h' => TransCmp.isLE_trans h h'⟩

instance : Std.Total NameLessEqual where
  total p q := by
    unfold NameLessEqual
    rw [@OrientedCmp.eq_swap _ compare _ q.1]
    cases compare p.1 q.1 <;> simp

/-- No name has two values. -/
def Consistent (pairs : List ByteSeqPair) : Prop :=
  ∀ p ∈ pairs, ∀ q ∈ pairs, p.1 = q.1 → p.2 = q.2

theorem Consistent.perm {pairs pairs' : List ByteSeqPair} (h : pairs.Perm pairs') :
    Consistent pairs ↔ Consistent pairs' := by
  simp only [Consistent, h.mem_iff]

/-! ## The loop over the sorted list -/

namespace RequestData

/-- What the loop leaves when the names of its list are not in the environment. -/
structure Placed (pairs : List ByteSeqPair) (env : ParamsMap) (r : ParamsMap × Bool) : Prop where
  valid : r.2 = true ↔ Consistent pairs
  environment : r.2 = true → ∀ name value,
    r.1[name]? = some value ↔ env[name]? = some value ∨ (name, value) ∈ pairs

/-- A repeated pair changes nothing. -/
theorem Placed.repeated {current : ByteSeqPair} {rest : List ByteSeqPair} {env : ParamsMap}
    {r : ParamsMap × Bool} (h : Placed (current :: rest) env r) :
    Placed (current :: current :: rest) env r := by
  have hmem : ∀ p, p ∈ current :: current :: rest ↔ p ∈ current :: rest := by simp
  constructor
  · rw [h.valid]
    simp only [Consistent, hmem]
  · intro hr name value
    rw [h.environment hr, hmem]

theorem getElem?_insertIfNew_of_not_mem {env : ParamsMap} {pair : ByteSeqPair} (h : pair.1 ∉ env)
    (name value : Bytes) :
    (env.insertIfNew pair.1 pair.2)[name]? = some value ↔
      env[name]? = some value ∨ (name, value) = pair := by
  rw [ExtTreeMap.getElem?_insertIfNew]
  by_cases hname : compare pair.1 name = .eq
  · obtain rfl := LawfulEqOrd.eq_of_compare hname
    rw [if_pos ⟨hname, h⟩, ExtTreeMap.getElem?_eq_none h, Option.some.injEq]
    obtain ⟨n, v⟩ := pair
    simp [eq_comm]
  · rw [if_neg (fun hboth => hname hboth.1)]
    have hne : (name, value) ≠ pair := by
      rintro rfl
      exact hname ReflCmp.compare_self
    simp [hne]

theorem placed_single {env : ParamsMap} {current : ByteSeqPair} (h : current.1 ∉ env) :
    Placed [current] env (env.insertIfNew current.1 current.2, true) where
  valid := by simp [Consistent]
  environment _ name value := by
    rw [getElem?_insertIfNew_of_not_mem h, List.mem_singleton]

/-- The first pair was placed: its name is not the name of another one. -/
theorem Placed.cons {current : ByteSeqPair} {rest : List ByteSeqPair} {env : ParamsMap}
    {r : ParamsMap × Bool} (hnew : current.1 ∉ env) (hother : ∀ p ∈ rest, p.1 ≠ current.1)
    (h : Placed rest (env.insertIfNew current.1 current.2) r) : Placed (current :: rest) env r where
  valid := by
    rw [h.valid]
    constructor
    · rintro hrest p hp q hq hname
      rcases List.mem_cons.mp hp with hp | hp <;> rcases List.mem_cons.mp hq with hq | hq
      · rw [hp, hq]
      · rw [hp] at hname
        exact absurd hname.symm (hother q hq)
      · rw [hq] at hname
        exact absurd hname (hother p hp)
      · exact hrest p hp q hq hname
    · exact fun hall p hp q hq => hall p (by simp [hp]) q (by simp [hq])
  environment hr name value := by
    rw [h.environment hr, getElem?_insertIfNew_of_not_mem hnew, List.mem_cons, or_assoc]

theorem placePairs_spec (rest : List ByteSeqPair) : ∀ (current : ByteSeqPair) (env : ParamsMap),
    (current :: rest).Pairwise NameLessEqual → (∀ p ∈ current :: rest, p.1 ∉ env) →
    Placed (current :: rest) env (placePairs current rest env) := by
  induction rest with
  | nil => exact fun current env _ hnew => placed_single (hnew current (by simp))
  | cons next rest ih =>
    intro current env hsorted hnew
    rw [placePairs]
    obtain ⟨hcurrent, htail⟩ := List.pairwise_cons.mp hsorted
    by_cases hname : current.1 = next.1
    · rw [if_pos hname]
      by_cases hvalue : current.2 = next.2
      · rw [if_pos hvalue]
        obtain rfl : current = next := Prod.ext hname hvalue
        exact (ih current env htail fun p hp => hnew p (List.mem_cons_of_mem _ hp)).repeated
      · rw [if_neg hvalue]
        refine ⟨iff_of_false (by simp) fun hall => hvalue ?_, fun h => by cases h⟩
        exact hall current (by simp) next (by simp) hname
    · rw [if_neg hname]
      -- The list is sorted: a pair after `next` with the name of `current` would make them equal.
      have hother : ∀ p ∈ next :: rest, p.1 ≠ current.1 := by
        intro p hp heq
        apply hname
        apply nameLessEqual_antisymm (hcurrent next (by simp))
        rcases List.mem_cons.mp hp with rfl | hp
        · exact absurd heq.symm hname
        · have hle := (List.pairwise_cons.mp htail).1 p hp
          unfold NameLessEqual at hle ⊢
          rwa [heq] at hle
      refine (ih next _ htail fun p hp hmem => ?_).cons (hnew current (by simp)) hother
      rcases ExtTreeMap.mem_insertIfNew.mp hmem with hsame | hmem
      · exact hother p hp (LawfulEqOrd.eq_of_compare hsame).symm
      · exact hnew p (List.mem_cons_of_mem _ hp) hmem

/-- **`ProcessFCGI_PARAMS`** accepts the content exactly when no name of it has
two values, and the environment is then the map of its pairs. -/
theorem processFcgiParams_iff {sort : List ByteSeqPair → List ByteSeqPair}
    (hsort : Sorts NameLessEqual sort) (d : RequestData) (hempty : d.environmentMap = ∅) :
    ((d.processFcgiParamsBy sort).2 = true ↔
      d.fcgiParams = [] ∨ ∃ pairs, Parses d.fcgiParams pairs ∧ Consistent pairs) ∧
    ((d.processFcgiParamsBy sort).2 = true → ∃ pairs, Parses d.fcgiParams pairs ∧
      ∀ name value, (d.processFcgiParamsBy sort).1.environmentMap[name]? = some value ↔
        (name, value) ∈ pairs) := by
  unfold processFcgiParamsBy
  by_cases hnil : d.fcgiParams = []
  · rw [if_pos hnil]
    refine ⟨iff_of_true rfl (.inl hnil), fun _ => ⟨[], hnil ▸ .nil, fun name value => ?_⟩⟩
    rw [hempty]
    simp
  · rw [if_neg hnil]
    by_cases hparses : ∃ pairs, Parses d.fcgiParams pairs
    · obtain ⟨pairs, hpairs⟩ := hparses
      have hperm := hsort.perm pairs
      have hsorted := hsort.sorted pairs
      rw [hpairs.extractBinaryNameValuePairs]
      cases hlist : sort pairs with
      | nil =>
        rw [hlist, List.nil_perm] at hperm
        exact absurd (hpairs.eq_nil_iff.mp hperm) hnil
      | cons first rest =>
        rw [hlist] at hperm hsorted
        have hplaced := placePairs_spec rest first d.environmentMap hsorted fun p _ => by
          rw [hempty]
          exact ExtTreeMap.not_mem_empty
        refine ⟨?_, fun hvalid => ⟨pairs, hpairs, fun name value => ?_⟩⟩
        · refine hplaced.valid.trans ((Consistent.perm hperm).trans ⟨fun h => .inr ⟨pairs, hpairs, h⟩, ?_⟩)
          rintro (h | ⟨pairs', hpairs', h⟩)
          · exact absurd h hnil
          · exact hpairs.unique hpairs' ▸ h
        · refine (hplaced.environment hvalid name value).trans ?_
          rw [hempty, hperm.mem_iff]
          simp
    · rw [extractBinaryNameValuePairs_of_not_parses fun pairs h => hparses ⟨pairs, h⟩,
        List.perm_nil.mp (hsort.perm [])]
      refine ⟨iff_of_false (by simp) ?_, fun h => by cases h⟩
      rintro (h | ⟨pairs, h, -⟩)
      · exact hnil h
      · exact hparses ⟨pairs, h⟩

/-- A pair that is repeated after another one. -/
theorem processFcgiParams_iff_repeated :
    ∃ pairs, Parses [1, 1, 66, 67, 1, 0, 65, 1, 1, 66, 67] pairs ∧ ∀ name value,
      (processFcgiParamsBy (List.insertionSort NameLessEqual)
        { fcgiParams := [1, 1, 66, 67, 1, 0, 65, 1, 1, 66, 67], role := 1, closeConnection := true
          node := 0, socket := 0 }).1.environmentMap[name]? = some value ↔ (name, value) ∈ pairs :=
  (processFcgiParams_iff sorts_insertionSort
    { fcgiParams := [1, 1, 66, 67, 1, 0, 65, 1, 1, 66, 67], role := 1, closeConnection := true
      node := 0, socket := 0 } rfl).2 (by decide +kernel)

end RequestData

end AsComponents.Server
