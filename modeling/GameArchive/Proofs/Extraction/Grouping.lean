/-
The orders of requests.

A request is put into the order of its container, before all that is already
in it, or into a new order where that belongs. So there is one order for each
container, the orders come one after the other by their names, and in each
there are the paths that are requested of its container, as they come. Two
lists of requests that ask each container for the same paths in the same
order therefore have the same orders.

Main statements: `wanted_of_mem`, `ofRequests_congr`.
-/
import GameArchive.Extraction.Order

namespace GameArchive.Extraction

/-- The paths that are requested of a container, in this order. -/
def pathsOf (requests : List Request) (name : String) : List String :=
  (requests.filter fun r => r.container = name).map Request.path

theorem pathsOf_cons_self (r : Request) (requests : List Request) :
    pathsOf (r :: requests) r.container
      = r.path :: pathsOf requests r.container := by
  simp [pathsOf]

theorem pathsOf_cons_of_ne {r : Request} {name : String}
    (h : r.container ≠ name) (requests : List Request) :
    pathsOf (r :: requests) name = pathsOf requests name := by
  simp [pathsOf, h]

/-- A container without paths is one that nobody asked for. -/
theorem pathsOf_eq_nil_iff {requests : List Request} {name : String} :
    pathsOf requests name = []
      ↔ name ∉ requests.map Request.container := by
  simp [pathsOf]

namespace Order

variable {r : Request} {requests : List Request} {orders : List Order}

-- ================================================================= names

/-- Inserting a request brings in its container, and loses none. -/
theorem container_mem_insert {name : String} :
    name ∈ (insert r orders).map Order.container
      ↔ name = r.container ∨ name ∈ orders.map Order.container := by
  induction orders with
  | nil => simp [insert]
  | cons order rest ih =>
      unfold insert
      by_cases hsame : r.container = order.container
      · rw [if_pos hsame]
        simp [hsame]
      rw [if_neg hsame]
      by_cases hless : r.container < order.container
      · rw [if_pos hless]
        simp
      · rw [if_neg hless, List.map_cons, List.mem_cons, ih, List.map_cons,
          List.mem_cons]
        exact or_left_comm

/-- There are orders for all containers that something is requested of. -/
theorem container_mem_ofRequests {name : String} :
    name ∈ (ofRequests requests).map Order.container
      ↔ name ∈ requests.map Request.container := by
  induction requests with
  | nil => rfl
  | cons r requests ih =>
      show name ∈ (insert r (ofRequests requests)).map Order.container ↔ _
      rw [container_mem_insert, ih, List.map_cons, List.mem_cons]

/-- Orders whose names ascend. -/
def Ascending (orders : List Order) : Prop :=
  orders.Pairwise fun first later => first.container < later.container

/-- Inserting a request keeps the order of the containers. -/
theorem Ascending.insert (h : Ascending orders) :
    Ascending (insert r orders) := by
  induction orders with
  | nil => exact List.pairwise_singleton _ _
  | cons order rest ih =>
      obtain ⟨hfirst, hrest⟩ := List.pairwise_cons.mp h
      unfold Order.insert
      by_cases hsame : r.container = order.container
      · rw [if_pos hsame]
        exact List.pairwise_cons.mpr ⟨hfirst, hrest⟩
      rw [if_neg hsame]
      by_cases hless : r.container < order.container
      · rw [if_pos hless]
        refine List.pairwise_cons.mpr ⟨?_, h⟩
        intro later hlater
        rcases List.mem_cons.mp hlater with rfl | hmem
        · exact hless
        · exact String.lt_trans hless (hfirst later hmem)
      · rw [if_neg hless]
        refine List.pairwise_cons.mpr ⟨?_, ih hrest⟩
        intro later hlater
        have hname := container_mem_insert.mp
          (List.mem_map_of_mem (f := Order.container) hlater)
        rcases hname with hnew | hold
        · rw [hnew]
          refine Classical.byContradiction fun hle => hsame ?_
          exact String.le_antisymm (String.not_lt.mp hle)
            (String.not_lt.mp hless)
        · obtain ⟨old, hmem, hold⟩ := List.mem_map.mp hold
          rw [← hold]
          exact hfirst old hmem

/-- Containers are opened in ascending order, in whatever order the requests
came. -/
theorem ascending_ofRequests : Ascending (ofRequests requests) := by
  induction requests with
  | nil => exact List.Pairwise.nil
  | cons r requests ih => exact ih.insert

-- ================================================================ wishes

theorem ne_of_container_lt {first later : Order}
    (h : first.container < later.container) :
    first.container ≠ later.container := by
  intro heq
  rw [heq] at h
  exact String.lt_irrefl _ h

/-- After a request is put into orders, they are as before, apart from that
of its container, which is new or has the path before its others. -/
theorem mem_insert {order : Order} (hasc : Ascending orders)
    (hmem : order ∈ insert r orders) :
    (order ∈ orders ∧ r.container ≠ order.container)
      ∨ (r.container ∉ orders.map Order.container
        ∧ order = ⟨r.container, some [r.path]⟩)
      ∨ ∃ old ∈ orders, r.container = old.container
        ∧ order = ⟨old.container, old.wanted.map (r.path :: ·)⟩ := by
  induction orders with
  | nil => exact .inr (.inl ⟨List.not_mem_nil, List.mem_singleton.mp hmem⟩)
  | cons first rest ih =>
      obtain ⟨hfirst, hrest⟩ := List.pairwise_cons.mp hasc
      have htail := List.subset_cons_self first rest
      unfold insert at hmem
      -- The request joins an order, stands before all that are left, or goes
      -- on.
      by_cases hsame : r.container = first.container
      · rw [if_pos hsame] at hmem
        rcases List.mem_cons.mp hmem with rfl | hlater
        · exact .inr (.inr ⟨first, List.mem_cons_self, hsame, rfl⟩)
        · refine .inl ⟨htail hlater, ?_⟩
          rw [hsame]
          exact ne_of_container_lt (hfirst order hlater)
      rw [if_neg hsame] at hmem
      by_cases hless : r.container < first.container
      · rw [if_pos hless] at hmem
        have hother : ∀ old ∈ first :: rest,
            r.container ≠ old.container := by
          intro old hold heq
          rcases List.mem_cons.mp hold with rfl | hlater
          · exact hsame heq
          · rw [heq] at hless
            exact String.lt_asymm hless (hfirst old hlater)
        rcases List.mem_cons.mp hmem with rfl | hold
        · refine .inr (.inl ⟨fun hname => ?_, rfl⟩)
          obtain ⟨old, hold, heq⟩ := List.mem_map.mp hname
          exact hother old hold heq.symm
        · exact .inl ⟨hold, hother order hold⟩
      rw [if_neg hless] at hmem
      rcases List.mem_cons.mp hmem with rfl | hlater
      · exact .inl ⟨List.mem_cons_self, hsame⟩
      rcases ih hrest hlater with ⟨hold, hne⟩ | ⟨hnone, hnew⟩ | hjoined
      · exact .inl ⟨htail hold, hne⟩
      · refine .inr (.inl ⟨fun hname => ?_, hnew⟩)
        rcases List.mem_cons.mp hname with heq | hname
        · exact hsame heq
        · exact hnone hname
      · obtain ⟨old, hold, heq, hwanted⟩ := hjoined
        exact .inr (.inr ⟨old, htail hold, heq, hwanted⟩)

/-- Each order is for what is requested of its container. -/
theorem wanted_of_mem {order : Order} (h : order ∈ ofRequests requests) :
    order.wanted = some (pathsOf requests order.container) := by
  induction requests generalizing order with
  | nil => cases h
  | cons r requests ih =>
      rcases mem_insert ascending_ofRequests h with
        ⟨hold, hne⟩ | ⟨hnone, rfl⟩ | ⟨old, hold, heq, rfl⟩
      · rw [ih hold, pathsOf_cons_of_ne hne]
      · have hnothing := pathsOf_eq_nil_iff.mpr
          (mt container_mem_ofRequests.mpr hnone)
        rw [pathsOf_cons_self, hnothing]
      · show old.wanted.map (r.path :: ·) = _
        rw [ih hold, ← heq, pathsOf_cons_self]
        rfl

/-- The orders are known by their names. -/
theorem ofRequests_eq_map :
    ofRequests requests = ((ofRequests requests).map Order.container).map
      fun name => ⟨name, some (pathsOf requests name)⟩ := by
  rw [List.map_map]
  refine (List.map_id _).symm.trans (List.map_congr_left ?_)
  intro order horder
  show order = ⟨order.container, _⟩
  rw [← wanted_of_mem horder]

/-- No container is opened twice. -/
theorem nodup_containers :
    ((ofRequests requests).map Order.container).Nodup := by
  refine List.pairwise_map.mpr (ascending_ofRequests.imp ?_)
  intro first later hlt
  exact ne_of_container_lt hlt

/-- It is only the order within each container that counts. -/
theorem ofRequests_congr {requests' : List Request}
    (h : ∀ name, pathsOf requests' name = pathsOf requests name) :
    ofRequests requests' = ofRequests requests := by
  have hmem : ∀ name, name ∈ (ofRequests requests').map Order.container
      ↔ name ∈ (ofRequests requests).map Order.container := by
    intro name
    rw [container_mem_ofRequests, container_mem_ofRequests,
      ← Decidable.not_iff_not, ← pathsOf_eq_nil_iff, ← pathsOf_eq_nil_iff,
      h name]
  have hnames : (ofRequests requests').map Order.container
      = (ofRequests requests).map Order.container := by
    refine List.Perm.eq_of_pairwise (fun a b _ _ hab hba => ?_)
      (List.pairwise_map.mpr ascending_ofRequests)
      (List.pairwise_map.mpr ascending_ofRequests)
      ((List.perm_ext_iff_of_nodup nodup_containers nodup_containers).mpr
        hmem)
    exact absurd hba (String.lt_asymm hab)
  rw [ofRequests_eq_map, hnames, funext h]
  exact ofRequests_eq_map.symm

-- ================================================================= sizes

/-- How many items are known to be wanted in orders. -/
def sizeOfOrders : List Order → Nat
  | [] => 0
  | order :: rest => order.size + sizeOfOrders rest

theorem sizeOfOrders_append (front back : List Order) :
    sizeOfOrders (front ++ back)
      = sizeOfOrders front + sizeOfOrders back := by
  induction front with
  | nil => exact (Nat.zero_add _).symm
  | cons order front ih =>
      simp only [List.cons_append, sizeOfOrders, ih]
      omega

/-- A request counts as one, also if its container was asked for before. -/
theorem sizeOfOrders_insert
    (h : ∀ order ∈ orders, order.wanted.isSome) :
    sizeOfOrders (insert r orders) = sizeOfOrders orders + 1 := by
  induction orders with
  | nil => rfl
  | cons order rest ih =>
      have hrest := ih fun o ho => h o (List.mem_cons_of_mem order ho)
      have hfirst := h order List.mem_cons_self
      unfold insert
      by_cases hsame : r.container = order.container
      · rw [if_pos hsame]
        cases hwanted : order.wanted with
        | none =>
            rw [hwanted] at hfirst
            cases hfirst
        | some paths =>
            simp only [sizeOfOrders, size, hwanted, Option.map_some,
              List.length_cons]
            omega
      rw [if_neg hsame]
      by_cases hless : r.container < order.container
      · rw [if_pos hless]
        exact Nat.add_comm 1 _
      · rw [if_neg hless, sizeOfOrders, sizeOfOrders, hrest]
        rfl

/-- Every request is in one of the orders. -/
theorem sizeOfOrders_ofRequests :
    sizeOfOrders (ofRequests requests) = requests.length := by
  induction requests with
  | nil => rfl
  | cons r requests ih =>
      have hsome : ∀ order ∈ ofRequests requests, order.wanted.isSome := by
        intro order horder
        rw [wanted_of_mem horder]
        rfl
      rw [List.length_cons, ← ih]
      exact sizeOfOrders_insert hsome

/-- Every request is among those of one container. -/
theorem length_flatMap_pathsOf :
    (((ofRequests requests).map Order.container).flatMap
        (pathsOf requests)).length = requests.length := by
  have hsizes : ∀ orders : List Order,
      (∀ order ∈ orders,
        order.wanted = some (pathsOf requests order.container)) →
      ((orders.map Order.container).flatMap (pathsOf requests)).length
        = sizeOfOrders orders := by
    intro orders hwanted
    induction orders with
    | nil => rfl
    | cons order rest ih =>
        have hrest := ih fun o ho =>
          hwanted o (List.mem_cons_of_mem order ho)
        have hsize : order.size
            = (pathsOf requests order.container).length := by
          rw [size, hwanted order List.mem_cons_self]
        rw [List.map_cons, List.flatMap_cons, List.length_append, hrest,
          sizeOfOrders, hsize]
  rw [hsizes _ fun order => wanted_of_mem]
  exact sizeOfOrders_ofRequests

end Order
end GameArchive.Extraction
