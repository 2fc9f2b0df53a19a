import Creditcoin.Lib.Paging
import Creditcoin.Validator.Merkle

/-!
# Pages of the state

A `StateListRequest` is answered with a page of the leaves under an address. The tree is asked for
one leaf more than the page has; a pager looks the start up in them, cuts the page and names the
leaf after it. The processor follows the names until there is none.
-/

namespace Creditcoin.Validator

open Lib

/-- `MAX_PAGE_SIZE`. -/
def maxPageSize : Int := 25000

/-- `DEFAULT_PAGE_SIZE`. -/
def defaultPageSize : Int := 100

/-- `min(limit, MAX_PAGE_SIZE) or DEFAULT_PAGE_SIZE`. -/
def pageSize (limit : Int) : Int :=
  if min limit maxPageSize = 0 then defaultPageSize else min limit maxPageSize

/-- The failures of a request. -/
inductive Status where
  | invalidAddress
  | invalidPaging
  | invalidSort
  deriving DecidableEq

/-- `ClientStateListRequest`, for a state root. -/
structure StateListRequest where
  address : Text
  start : Text
  limit : Int
  sorting : List (List Text × Bool)

/-- `ClientPagingResponse`. -/
structure PagingResponse where
  next : Text
  start : Text
  limit : Int
  deriving DecidableEq

/-- `ClientStateListResponse`; it has the status `NO_RESOURCE` when there are no entries. -/
structure StateListResponse where
  entries : List (Text × Text)
  paging : PagingResponse
  deriving DecidableEq

/-! ## The leaves of the tree -/

/-- `leaves[address] = value` of an ordered dictionary. -/
def setLeaf (address value : Text) : List (Text × Text) → List (Text × Text)
  | [] => [(address, value)]
  | (other, old) :: leaves =>
    if other = address then (other, value) :: leaves
    else (other, old) :: setLeaf address value leaves

/-- The loop of `_leaves_impl_fixed`, which is left with `limit+1` leaves. -/
def takeLeaves (limit : Int) : List (Text × Text) → List (Text × Text) → List (Text × Text)
  | leaves, [] => leaves
  | leaves, (address, value) :: rest =>
    let leaves := setLeaf address value leaves
    if limit ≠ 0 ∧ limit < leaves.length then leaves else takeLeaves limit leaves rest

/-- `_leaves_impl_fixed`. -/
def Node.leavesImplFixed (root : Node) (pfx start : Text) (limit : Int) (reverse : Bool) :
    List (Text × Text) :=
  if start ≠ [] ∧ start.startsWith pfx = false then []
  else
    match if pfx = [] then some root else root.getByAddr pfx with
    | none => []
    | some found => takeLeaves limit [] (found.yieldIterLeaves reverse pfx start)

/-! ## The answer -/

/-- `is_reverse`. -/
def isReverse (sorting : List (List Text × Bool)) : Except Status Bool :=
  match sorting with
  | [] => .ok false
  | (keys, reverse) :: _ =>
    if keys = ["default".toList] then .ok reverse else .error .invalidSort

/-- `_validate_namespace`: at most 35 pairs of digits. -/
def validateNamespace (address : Text) : Except Status Unit :=
  if address.isHex ∧ address.length % 2 = 0 ∧ address.length ≤ 70 then .ok ()
  else .error .invalidAddress

/-- `index_by_id`. -/
def indexById (targetId : Text) (resources : List (Text × Text)) : Except Status Nat :=
  match resources.findIdx? fun resource => decide (resource.1 = targetId) with
  | some index => .ok index
  | none => .error .invalidPaging

/-- `id_by_index`. -/
def idByIndex (index : Int) (resources : List (Text × Text)) : Text :=
  if index < 0 then [] else (resources[index.toNat]?).elim [] Prod.fst

/-- `resources[start:stop]`; a negative end counts from the end of the list. -/
def slice (start : Nat) (stop : Int) (resources : List (Text × Text)) : List (Text × Text) :=
  let stop := if stop < 0 then stop + resources.length else stop
  (resources.take stop.toNat).drop start

/-- `paginate_resources`. -/
def paginateResources (request : StateListRequest) (resources : List (Text × Text)) :
    Except Status (List (Text × Text) × PagingResponse) :=
  if resources = [] then .ok (resources, ⟨[], [], 0⟩)
  else
    let limit := pageSize request.limit
    match if request.start = [] then .ok 0 else indexById request.start resources with
    | .error failure => .error failure
    | .ok startIndex =>
      if resources.length ≤ startIndex then .error .invalidPaging
      else
        let pagedResources := slice startIndex (startIndex + limit) resources
        let next :=
          if startIndex + limit < resources.length then idByIndex (startIndex + limit) resources
          else []
        .ok (pagedResources, ⟨next, idByIndex startIndex resources, limit⟩)

/-- `StateListRequest._respond`, for the tree of the state root. -/
def respond (root : Node) (request : StateListRequest) : Except Status StateListResponse := do
  let reverse ← isReverse request.sorting
  let _ ← validateNamespace request.address
  let entries :=
    root.leavesImplFixed request.address request.start (pageSize request.limit) reverse
  let (entries, paging) ← paginateResources request entries
  return ⟨entries, paging⟩

/-- What the processor's loop takes from an answer: the entries and the next start, which is empty
when the request fails. -/
def readPage (root : Node) (request : StateListRequest) (start : Text) :
    List (Text × Text) × Text :=
  match respond root { request with start := start } with
  | .ok response => (response.entries, response.paging.next)
  | .error _ => ([], [])

/-- The entries that the loop in `filter` visits, unless it takes more pages than the count. -/
def visit (root : Node) (request : StateListRequest) (count : Nat) : Option (List (Text × Text)) :=
  follow (readPage root request) [] count []

/-! ## Completeness -/

/-- Values only at addresses of full length. -/
def Node.Full (root : Node) : Prop := ∀ entry ∈ root.values [], entry.1.length = 70

/-- Every leaf under an address is visited once, in the order of a direction. -/
structure Complete (root : Node) (address : Text) (reverse : Bool) (visited : List (Text × Text)) :
    Prop where
  /-- The leaves under the address are visited. -/
  leaves : ∀ entry, entry ∈ visited ↔ entry ∈ root.values [] ∧ address <+: entry.1
  /-- They are visited in address order, none twice. -/
  ordered : visited.Pairwise fun earlier later => Before reverse earlier.1 later.1

section Complete

variable {root : Node} {pfx : Text} {reverse : Bool} {leaves rest : List (Text × Text)}

/-- The leaves under an address, in order. -/
def Node.leavesUnder (root : Node) (pfx : Text) (reverse : Bool) : List (Text × Text) :=
  match root.getByAddr pfx with
  | none => []
  | some found => found.yieldIterLeaves reverse pfx []

/-- At the empty address is the root. -/
theorem getByAddr_root :
    (if pfx = [] then some root else root.getByAddr pfx) = root.getByAddr pfx := by
  split
  · rename_i empty
    rw [empty]
    rfl
  · rfl

/-- The leaves under an address are complete. -/
theorem leavesUnder_complete (reverse : Bool) (regular : root.Regular) (full : root.Full)
    (even : pfx.length % 2 = 0) : Complete root pfx reverse (root.leavesUnder pfx reverse) := by
  have found := descend_values (tokenizeAddress_length even) regular []
  rw [tokenizeAddress_flatten, List.nil_append] at found
  unfold Node.leavesUnder Node.getByAddr
  split
  · rename_i missing
    rw [missing] at found
    refine ⟨?_, List.Pairwise.nil⟩
    intro entry
    constructor
    · intro listed
      cases listed
    · rintro ⟨listed, leads⟩
      exact absurd leads (found entry listed)
  · rename_i node reached
    rw [reached] at found
    obtain ⟨regular', values⟩ := found
    have full' : ∀ entry ∈ node.values pfx, entry.1.length = 70 := by
      intro entry listed
      exact full entry ((values entry).mp listed).1
    refine ⟨?_, Node.yieldIterLeaves_pairwise regular'⟩
    intro entry
    rw [Node.mem_yieldIterLeaves regular' full', values]

/-- Leaves in strict order have different addresses. -/
theorem Complete.names (complete : Complete root pfx reverse leaves) :
    (leaves.map Prod.fst).Nodup := by
  rw [List.Nodup, List.pairwise_map]
  apply complete.ordered.imp
  intro earlier later ordered same
  rw [same] at ordered
  exact before_irrefl ordered

/-- A new address is put at the end. -/
theorem setLeaf_new {address value : Text} (fresh : address ∉ leaves.map Prod.fst) :
    setLeaf address value leaves = leaves ++ [(address, value)] := by
  induction leaves with
  | nil => rfl
  | cons leaf leaves ih =>
    obtain ⟨other, old⟩ := leaf
    simp only [List.map_cons, List.mem_cons, not_or] at fresh
    rw [setLeaf, if_neg (Ne.symm fresh.1), ih fresh.2, List.cons_append]

/-- One leaf more than the limit is taken. -/
theorem takeLeaves_eq {limit : Nat} (positive : 0 < limit)
    (names : ((leaves ++ rest).map Prod.fst).Nodup) (room : leaves.length ≤ limit) :
    takeLeaves limit leaves rest = (leaves ++ rest).take (limit + 1) := by
  induction rest generalizing leaves with
  | nil => rw [takeLeaves, List.append_nil, List.take_of_length_le (by omega)]
  | cons leaf rest ih =>
    obtain ⟨address, value⟩ := leaf
    have fresh : address ∉ leaves.map Prod.fst := by
      rw [List.map_append, List.nodup_append] at names
      intro listed
      exact names.2.2 _ listed address (by simp) rfl
    have again : leaves ++ (address, value) :: rest = leaves ++ [(address, value)] ++ rest := by
      simp
    rw [takeLeaves, setLeaf_new fresh, again]
    by_cases last : leaves.length = limit
    · have enough : (limit : Int) ≠ 0 ∧
          (limit : Int) < ((leaves ++ [(address, value)]).length : Int) := by
        rw [List.length_append, List.length_singleton]
        omega
      rw [if_pos enough, List.take_append_of_le_length, List.take_of_length_le]
      · rw [List.length_append, List.length_singleton]
        omega
      · rw [List.length_append, List.length_singleton]
        omega
    · have more : ¬ ((limit : Int) ≠ 0 ∧
          (limit : Int) < ((leaves ++ [(address, value)]).length : Int)) := by
        rw [List.length_append, List.length_singleton]
        omega
      rw [if_neg more]
      apply ih
      · rwa [← again]
      · rw [List.length_append, List.length_singleton]
        omega

/-- Before the first element of a name there is none of it. -/
theorem dropWhile_names {before after : List (Text × Text)} {start : Text}
    (names : ((before ++ after).map Prod.fst).Nodup) (filled : after ≠ [])
    (named : markOf Prod.fst [] after = start) :
    (before ++ after).dropWhile (fun entry => decide (entry.1 ≠ start)) = after := by
  obtain ⟨leaf, rest, rfl⟩ := List.exists_cons_of_ne_nil filled
  have named : leaf.1 = start := named
  rw [List.map_append, List.nodup_append] at names
  rw [List.dropWhile_append_of_pos, List.dropWhile_cons_of_neg]
  · simp [named]
  · intro entry earlier
    rw [decide_eq_true_eq, ← named]
    exact names.2.2 entry.1 (List.mem_map_of_mem earlier) leaf.1 (by simp)

/-- From an address of theirs on, the leaves of the tree are those from it on. -/
theorem leavesImplFixed_eq (regular : root.Regular) (full : root.Full) (even : pfx.length % 2 = 0)
    {limit : Nat} (positive : 0 < limit) {before after : List (Text × Text)}
    (split : root.leavesUnder pfx reverse = before ++ after) (starts : before = [] ∨ after ≠ []) :
    root.leavesImplFixed pfx (if before = [] then [] else markOf Prod.fst [] after) limit reverse =
      after.take (limit + 1) := by
  have complete := leavesUnder_complete reverse regular full even
  have names := complete.names
  rw [split] at names
  have names' : (([] ++ after).map Prod.fst).Nodup := by
    rw [List.map_append, List.nodup_append] at names
    exact names.2.1
  by_cases first : before = []
  · subst first
    rw [if_pos rfl, Node.leavesImplFixed, if_neg (by simp), getByAddr_root]
    simp only [Node.leavesUnder] at split
    split
    · rename_i missing
      rw [missing] at split
      have none : after = [] := split.symm
      simp [none]
    · rename_i node reached
      rw [reached] at split
      simp only [List.nil_append] at split
      rw [split, takeLeaves_eq positive names' (Nat.zero_le _), List.nil_append]
  · have filled := starts.resolve_left first
    obtain ⟨leaf, rest, rfl⟩ := List.exists_cons_of_ne_nil filled
    have listed : leaf ∈ root.leavesUnder pfx reverse := by
      rw [split]
      exact List.mem_append_right _ List.mem_cons_self
    have under := (complete.leaves leaf).mp listed
    have given : leaf.1 ≠ [] := by
      intro empty
      have long := full leaf under.1
      rw [empty] at long
      cases long
    have within : leaf.1.startsWith pfx = true := by
      rw [Text.startsWith, List.isPrefixOf_iff_prefix]
      exact under.2
    have marked : markOf Prod.fst [] (leaf :: rest) = leaf.1 := rfl
    rw [if_neg first, marked, Node.leavesImplFixed, if_neg (by simp [within]), getByAddr_root]
    simp only [Node.leavesUnder] at split listed
    split
    · rename_i missing
      rw [missing] at listed
      cases listed
    · rename_i node reached
      rw [reached] at split listed
      dsimp only at split listed
      have found := descend_values (tokenizeAddress_length even) regular []
      rw [tokenizeAddress_flatten, List.nil_append] at found
      rw [Node.getByAddr] at reached
      rw [reached] at found
      rw [Node.yieldIterLeaves_start found.1 given ⟨leaf, listed, rfl⟩, split,
        dropWhile_names names filled marked, takeLeaves_eq positive names' (Nat.zero_le _),
        List.nil_append]

/-- The size of a page is positive, unless the limit is negative. -/
theorem pageSize_eq {limit : Int} (counted : 0 ≤ limit) :
    ∃ size : Nat, 0 < size ∧ pageSize limit = size := by
  unfold pageSize maxPageSize defaultPageSize
  split
  · exact ⟨100, by decide, rfl⟩
  · exact ⟨(min limit 25000).toNat, by omega, by omega⟩

/-- A negative limit is the size of a page. -/
theorem pageSize_negative {limit : Int} (negative : limit < 0) : pageSize limit = limit := by
  unfold pageSize maxPageSize
  rw [if_neg (by omega)]
  omega

/-- The addresses of the tree are of digits. -/
theorem values_isHex {node : Node} {path : Text} (regular : node.Regular)
    (digits : path.isHex = true) {entry : Text × Text} (listed : entry ∈ node.values path) :
    entry.1.isHex = true := by
  induction node generalizing path with
  | missing => cases regular
  | node v tokens child ih =>
    obtain ⟨_, branches⟩ := regular
    rw [Node.values, List.mem_append] at listed
    rcases listed with own | under
    · cases v with
      | none => cases own
      | some value =>
        obtain rfl := List.mem_singleton.mp own
        exact digits
    · obtain ⟨token, member, listed⟩ := List.mem_flatMap.mp under
      obtain ⟨_, digits', regular'⟩ := branches token member
      apply ih token regular' _ listed
      rw [Text.isHex, List.all_append, Bool.and_eq_true]
      exact ⟨digits, digits'⟩

/-- An address that leads to a leaf is valid. -/
theorem validateNamespace_ok (regular : root.Regular) (full : root.Full)
    (even : pfx.length % 2 = 0) {entry : Text × Text} (listed : entry ∈ root.values [])
    (leads : pfx <+: entry.1) : validateNamespace pfx = .ok () := by
  have digits := values_isHex regular rfl listed
  have short := leads.length_le
  rw [full entry listed] at short
  obtain ⟨after, continued⟩ := leads
  rw [← continued, Text.isHex, List.all_append, Bool.and_eq_true] at digits
  exact if_pos ⟨digits.1, even, short⟩

variable {request : StateListRequest}

/-- A page that starts at the first resource. -/
theorem paginateResources_first {resources : List (Text × Text)} (filled : resources ≠ [])
    (index : (if request.start = [] then .ok 0 else indexById request.start resources) = .ok 0) :
    paginateResources request resources =
      .ok (slice 0 (pageSize request.limit) resources,
        ⟨if pageSize request.limit < resources.length then
            idByIndex (pageSize request.limit) resources
          else [], idByIndex 0 resources, pageSize request.limit⟩) := by
  have long : ¬ resources.length ≤ 0 := by
    have := List.length_pos_iff.mpr filled
    omega
  have same : ((0 : Nat) : Int) + pageSize request.limit = pageSize request.limit := by omega
  simp only [paginateResources, if_neg filled, index, if_neg long, same]
  rfl

/-- The start is the first of the leaves it was found in. -/
theorem indexById_first {leaf : Text × Text} :
    (if leaf.1 = [] then .ok 0 else indexById leaf.1 (leaf :: rest)) = .ok 0 := by
  split
  · rfl
  · simp [indexById, List.findIdx?_cons]

/-- The pages have all leaves under an address. -/
theorem readPage_pages (regular : root.Regular) (full : root.Full)
    (even : request.address.length % 2 = 0) (sorted : isReverse request.sorting = .ok reverse)
    (valid : validateNamespace request.address = .ok ()) {size : Nat} (positive : 0 < size)
    (sized : pageSize request.limit = size) :
    Pages Prod.fst [] size (root.leavesUnder request.address reverse) (readPage root request) := by
  intro before after split starts
  have leaves := leavesImplFixed_eq regular full even positive split starts
  generalize marked : (if before = [] then [] else markOf Prod.fst [] after) = start at leaves ⊢
  unfold readPage respond
  simp only [sorted, valid, sized, leaves, bind, Except.bind]
  by_cases none : after = []
  · subst none
    simp [paginateResources, markOf, pure, Except.pure]
  · obtain ⟨leaf, rest, rfl⟩ := List.exists_cons_of_ne_nil none
    have index : (if start = [] then .ok 0
        else indexById start ((leaf :: rest).take (size + 1))) = .ok 0 := by
      rw [List.take_succ_cons]
      by_cases first : before = []
      · rw [if_pos first] at marked
        rw [if_pos marked.symm]
      · rw [if_neg first] at marked
        rw [← marked]
        exact indexById_first
    have cut :
        slice 0 (size : Int) ((leaf :: rest).take (size + 1)) = (leaf :: rest).take size := by
      have stop : ¬ (size : Int) < 0 := by omega
      simp only [slice, if_neg stop, Int.toNat_natCast, List.drop_zero, List.take_take]
      congr 1
      omega
    have next : (if (size : Int) < (((leaf :: rest).take (size + 1)).length : Int) then
        idByIndex (size : Int) ((leaf :: rest).take (size + 1)) else []) =
        markOf Prod.fst [] ((leaf :: rest).drop size) := by
      by_cases more : size < (leaf :: rest).length
      · have counted : (size : Int) < (((leaf :: rest).take (size + 1)).length : Int) := by
          rw [List.length_take]
          omega
        have given : ¬ (size : Int) < 0 := by omega
        rw [if_pos counted, idByIndex, if_neg given, Int.toNat_natCast, markOf, List.head?_drop,
          List.getElem?_take, if_pos (Nat.lt_succ_self size)]
      · have ended : ¬ (size : Int) < (((leaf :: rest).take (size + 1)).length : Int) := by
          rw [List.length_take]
          omega
        rw [if_neg ended, List.drop_eq_nil_of_le (by omega)]
        rfl
    rw [paginateResources_first (by simp) index]
    simp only [sized, cut, next, pure, Except.pure]

/-- Without leaves under the address the only page is empty. -/
theorem readPage_none (none : root.leavesUnder request.address reverse = [])
    (sorted : isReverse request.sorting = .ok reverse) : readPage root request [] = ([], []) := by
  have leaves : root.leavesImplFixed request.address [] (pageSize request.limit) reverse = [] := by
    rw [Node.leavesImplFixed, if_neg (by simp), getByAddr_root]
    simp only [Node.leavesUnder] at none
    split
    · rfl
    · rename_i node reached
      rw [reached] at none
      dsimp only at none
      rw [none]
      rfl
  unfold readPage respond
  simp only [sorted, leaves, bind, Except.bind]
  cases valid : validateNamespace request.address with
  | error failure => rfl
  | ok _ => rfl

/-- With a negative limit at most one leaf is taken. -/
theorem takeLeaves_negative {limit : Int} (negative : limit < 0) :
    takeLeaves limit [] leaves = leaves.take 1 := by
  cases leaves with
  | nil => rfl
  | cons leaf leaves =>
    have stop : limit ≠ 0 ∧ limit < (([leaf].length : Nat) : Int) := by
      rw [List.length_singleton]
      omega
    rw [takeLeaves, setLeaf, if_pos stop]
    rfl

/-- With a negative limit the only page is empty. -/
theorem readPage_negative (negative : request.limit < 0) : readPage root request [] = ([], []) := by
  have short (reverse : Bool) :
      (root.leavesImplFixed request.address [] request.limit reverse).length ≤ 1 := by
    rw [Node.leavesImplFixed, if_neg (by simp)]
    split
    · exact Nat.zero_le 1
    · rw [takeLeaves_negative negative, List.length_take]
      exact Nat.min_le_left 1 _
  unfold readPage respond
  cases isReverse request.sorting with
  | error failure => rfl
  | ok reverse =>
    cases validateNamespace request.address with
    | error failure => rfl
    | ok _ =>
      have short := short reverse
      simp only [bind, Except.bind, pageSize_negative negative]
      generalize root.leavesImplFixed request.address [] request.limit reverse = resources
        at short ⊢
      by_cases none : resources = []
      · simp [none, paginateResources, pure, Except.pure]
      · have filled := List.length_pos_iff.mpr none
        have cut : slice 0 request.limit resources = [] := by
          have stop : (request.limit + resources.length).toNat = 0 := by omega
          simp only [slice, if_pos negative, stop, List.take_zero, List.drop_nil]
        have more : request.limit < resources.length := by omega
        rw [paginateResources_first none rfl]
        simp only [pageSize_negative negative, cut, if_pos more, idByIndex, if_pos negative, pure,
          Except.pure]

/-- The pages of the leaves under an address have all of them, in order, exactly when the limit is
not negative or there is none. -/
theorem pages_complete_iff (regular : root.Regular) (full : root.Full)
    (even : request.address.length % 2 = 0) (sorted : isReverse request.sorting = .ok reverse) :
    (∃ count visited, visit root request count = some visited ∧
      Complete root request.address reverse visited) ↔
      0 ≤ request.limit ∨ ∀ entry ∈ root.values [], ¬ request.address <+: entry.1 := by
  have complete := leavesUnder_complete reverse regular full even
  constructor
  · rintro ⟨count, visited, followed, visits⟩
    by_cases negative : request.limit < 0
    · right
      intro entry listed leads
      have found := (visits.leaves entry).mpr ⟨listed, leads⟩
      cases count with
      | zero => cases followed
      | succ count =>
        simp only [visit, follow, readPage_negative negative, if_true,
          Option.some.injEq] at followed
        subst followed
        cases found
    · exact .inl (by omega)
  · intro holds
    by_cases none : root.leavesUnder request.address reverse = []
    · refine ⟨1, [], ?_, none ▸ complete⟩
      simp only [visit, follow, readPage_none none sorted, if_true]
    · obtain ⟨leaf, rest, found⟩ := List.exists_cons_of_ne_nil none
      have under := (complete.leaves leaf).mp (found ▸ List.mem_cons_self)
      have counted := holds.resolve_right fun free => free leaf under.1 under.2
      have valid := validateNamespace_ok regular full even under.1 under.2
      obtain ⟨size, positive, sized⟩ := pageSize_eq counted
      have pages := readPage_pages regular full even sorted valid positive sized
      have named : ∀ entry ∈ root.leavesUnder request.address reverse, entry.1 ≠ [] := by
        intro entry listed empty
        have long := full entry ((complete.leaves entry).mp listed).1
        rw [empty] at long
        cases long
      obtain ⟨count, followed⟩ := follow_all pages positive named
      exact ⟨count, _, followed, complete⟩

end Complete

/-! ## A negative limit -/

/-- A path of nodes over another node. -/
def Node.over (tokens : List Text) (top : Node) : Node :=
  tokens.foldr (fun token node => .node none [token] fun _ => node) top

/-- A leaf. -/
def Node.leaf (value : Text) : Node := .node (some value) [] fun _ => .missing

/-- A tree with two leaves, whose addresses differ in their last token. -/
def sampleTree : Node :=
  Node.over (List.replicate 34 "8a".toList) <|
    .node none ["ff".toList, "1e".toList] fun token =>
      if token = "ff".toList then .leaf "second".toList else .leaf "first".toList

/-- The tree of the sample is regular under any path. -/
theorem over_regular {tokens : List Text} {top : Node} (regular : top.Regular)
    (two : ∀ token ∈ tokens, token.length = tokenSize ∧ token.isHex = true) :
    (Node.over tokens top).Regular := by
  induction tokens with
  | nil => exact regular
  | cons token tokens ih =>
    have rest := ih fun other listed => two other (List.mem_cons_of_mem _ listed)
    refine ⟨List.nodup_singleton _, ?_⟩
    intro other listed
    obtain rfl := List.mem_singleton.mp listed
    have two := two other List.mem_cons_self
    exact ⟨two.1, two.2, rest⟩

/-- The tree of the sample is regular. -/
theorem sampleTree_regular : sampleTree.Regular := by
  apply over_regular
  · refine ⟨by decide, ?_⟩
    intro token listed
    rcases List.mem_pair.mp listed with rfl | rfl
    · exact ⟨rfl, rfl, List.nodup_nil, fun _ listed => by cases listed⟩
    · exact ⟨rfl, rfl, List.nodup_nil, fun _ listed => by cases listed⟩
  · intro token listed
    obtain rfl := List.eq_of_mem_replicate listed
    exact ⟨rfl, rfl⟩

/-- The tree of the sample has values at full addresses only. -/
theorem sampleTree_full : sampleTree.Full := by
  unfold Node.Full
  decide

/-- With a limit of one leaf both leaves of the sample are visited, the last one first. -/
theorem pages_complete_iff_sample :
    let request : StateListRequest := ⟨"8a8a".toList, [], 1, [(["default".toList], true)]⟩
    ((∃ count visited, visit sampleTree request count = some visited ∧
      Complete sampleTree request.address true visited) ↔
      0 ≤ request.limit ∨ ∀ entry ∈ sampleTree.values [], ¬ request.address <+: entry.1) ∧
      (visit sampleTree request 2).map (List.map Prod.snd) =
        some ["second".toList, "first".toList] := by
  intro request
  have even : request.address.length % 2 = 0 := by decide
  have sorted : isReverse request.sorting = .ok true := by decide
  exact ⟨pages_complete_iff sampleTree_regular sampleTree_full even sorted, by decide +kernel⟩

/-- With a negative limit no leaf is visited. -/
theorem pages_incomplete :
    ¬ ∀ (root : Node) (request : StateListRequest) (reverse : Bool), root.Regular → root.Full →
      request.address.length % 2 = 0 → isReverse request.sorting = .ok reverse →
      ∃ count visited, visit root request count = some visited ∧
        Complete root request.address reverse visited := by
  intro claim
  obtain ⟨count, visited, followed, complete⟩ :=
    claim sampleTree ⟨[], [], -1, []⟩ false sampleTree_regular sampleTree_full rfl rfl
  have listed : (List.flatten (List.replicate 34 "8a".toList) ++ "1e".toList, "first".toList) ∈
      sampleTree.values [] := by decide
  have found := (complete.leaves _).mpr ⟨listed, List.nil_prefix⟩
  cases count with
  | zero => cases followed
  | succ count =>
    have empty : readPage sampleTree ⟨[], [], -1, []⟩ [] = ([], []) := readPage_negative (by decide)
    simp only [visit, follow, empty, if_true, Option.some.injEq] at followed
    subst followed
    cases found

end Creditcoin.Validator
