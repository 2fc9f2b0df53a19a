import Creditcoin.PoW.Forks
import Mathlib.Algebra.BigOperators.Group.List.Basic
import Mathlib.Algebra.Order.Field.Power
import Mathlib.Data.Rat.Cast.Order
import Mathlib.Tactic.Linarith
import Mathlib.Tactic.Positivity

/-!
# Work of the forks

The work of a block is two to its difficulty, exactly, and the total of a head is the work of the
PoW blocks on its line. Sums of integers are exact, so where no difficulty above the common
ancestor is negative the comparison of two forks compares their totals. A negative difficulty makes
the sum a float, which rounds.
-/

namespace Creditcoin.PoW

/-- The work of a block. -/
def Node.work (node : Node) (block : Block) : Rat :=
  if isPow block.fields then
    match node.difficulty block.toBlockHeader with
    | .ok difficulty => 2 ^ difficulty
    | .error _ => 0
  else 0

/-- The work of a branch. -/
def Node.branchWork (node : Node) (branch : List Block) : Rat := (branch.map node.work).sum

/-- The total of the work on the line of a head. -/
def Node.total (node : Node) (head : Block) : Rat :=
  node.branchWork (node.cache.forest.line head)

/-- No difficulty of a branch is negative. -/
def NonNegativeBranch (node : Node) (branch : List Block) : Prop :=
  ∀ block ∈ branch, ∀ difficulty, node.difficulty block.toBlockHeader = .ok difficulty →
    0 ≤ difficulty

section Sums
variable {node : Node} {block ancestor : Block} {branch : List Block}

/-- Work is not negative. -/
theorem work_nonneg (node : Node) (block : Block) : 0 ≤ node.work block := by
  unfold Node.work
  split
  · split
    · positivity
    · exact le_refl 0
  · exact le_refl 0

/-- The total is the work of a branch and the total of the ancestor. -/
theorem total_eq (down : node.cache.forest.Branch ancestor block branch) :
    node.total block = node.branchWork branch + node.total ancestor := by
  rw [Node.total, down.line_eq, Node.branchWork, List.map_append, List.sum_append]
  rfl

/-- A difficulty that is not negative adds its work. -/
theorem weigh_eq {difficulty : Int} (start : Int) (pow : IsPow block)
    (read : node.difficulty block.toBlockHeader = .ok difficulty) (low : 0 ≤ difficulty) :
    ∃ sum : Int, node.weigh (.int start) block = .ok (.int sum) ∧
      (sum : Rat) = start + node.work block := by
  refine ⟨start + 2 ^ difficulty.toNat, ?_, ?_⟩
  · apply bind_ok.mpr
    refine ⟨difficulty, read, ?_⟩
    apply bind_ok.mpr
    exact ⟨.int (2 ^ difficulty.toNat), by rw [twoPow, if_pos low], rfl⟩
  · have powered : isPow block.fields = true := pow
    rw [Node.work, if_pos powered, read]
    have exponent : (difficulty.toNat : Int) = difficulty := Int.toNat_of_nonneg low
    push_cast
    rw [← zpow_natCast, exponent]

/-- Along a branch of readable difficulties that are not negative the sum is the work. -/
theorem foldlM_weigh (powers : ∀ block ∈ branch, IsPow block)
    (readable : ∀ block ∈ branch, ∃ difficulty,
      node.difficulty block.toBlockHeader = .ok difficulty ∧ 0 ≤ difficulty) (start : Int) :
    ∃ sum : Int, branch.foldlM node.weigh (.int start) = .ok (.int sum) ∧
      (sum : Rat) = start + node.branchWork branch := by
  induction branch generalizing start with
  | nil => exact ⟨start, rfl, by simp [Node.branchWork]⟩
  | cons block rest ih =>
    rw [List.forall_mem_cons] at powers readable
    have ⟨difficulty, read, low⟩ := readable.1
    have ⟨middle, weighed, added⟩ := weigh_eq start powers.1 read low
    have ⟨sum, summed, total⟩ := ih powers.2 readable.2 middle
    refine ⟨sum, ?_, ?_⟩
    · rw [List.foldlM_cons]
      exact bind_ok.mpr ⟨.int middle, weighed, summed⟩
    · rw [total, added, Node.branchWork, Node.branchWork, List.map_cons, List.sum_cons,
        add_assoc]

/-- The difficulties that were summed are readable. -/
theorem readable_of_foldlM {start sum : Number}
    (summed : branch.foldlM node.weigh start = .ok sum) :
    ∀ block ∈ branch, ∃ difficulty, node.difficulty block.toBlockHeader = .ok difficulty := by
  induction branch generalizing start with
  | nil => simp
  | cons block rest ih =>
    rw [List.foldlM_cons] at summed
    have ⟨middle, weighed, summed⟩ := bind_ok.mp summed
    have ⟨difficulty, read, _⟩ := bind_ok.mp weighed
    exact List.forall_mem_cons.mpr ⟨⟨difficulty, read⟩, ih summed⟩

/-- A sum without negative difficulties is the work of its branch. -/
theorem sum_of_nonNegative {sum : Number} (powers : ∀ block ∈ branch, IsPow block)
    (nonNegative : NonNegativeBranch node branch)
    (summed : branch.foldlM node.weigh (.int 0) = .ok sum) :
    ∃ value : Int, sum = .int value ∧ (value : Rat) = node.branchWork branch := by
  have readable : ∀ block ∈ branch, ∃ difficulty,
      node.difficulty block.toBlockHeader = .ok difficulty ∧ 0 ≤ difficulty := by
    intro block listed
    have ⟨difficulty, read⟩ := readable_of_foldlM summed block listed
    exact ⟨difficulty, read, nonNegative block listed difficulty read⟩
  have ⟨value, summed', total⟩ := foldlM_weigh powers readable 0
  rw [summed, Except.ok.injEq] at summed'
  exact ⟨value, summed', by simpa using total⟩

end Sums

/-! ## What a comparison finds -/

section Comparison
variable {node : Node} {clock : Block → Instant} {now : Instant} {cur new : Block}

/-- The weights of two forks are those of their branches down to the meeting. -/
theorem weighForks_ok {weights : Node.Weights} (curPow : IsPow cur) (newPow : IsPow new)
    (curHeld : node.cache.Holds cur) (newHeld : node.cache.Holds new)
    (weighed : node.weighForks clock cur new = .ok (some weights)) :
    ∃ ancestor curBranch newBranch, Meeting node cur new ancestor curBranch newBranch ∧
      weights.newForkLen = new.blockNum.toNat - ancestor.blockNum.toNat ∧
      weights.curForkLen = cur.blockNum.toNat - ancestor.blockNum.toNat ∧
      newBranch.foldlM node.weigh (.int 0) = .ok weights.newDifficulty ∧
      curBranch.foldlM node.weigh (.int 0) = .ok weights.curDifficulty ∧
      (curBranch ≠ [] → newBranch ≠ [] →
        node.time ancestor.toBlockHeader = .ok weights.commonAncestorTime) := by
  have ⟨newTip, newWalked, weighed⟩ := bind_ok.mp weighed
  have ⟨curTip, curWalked, weighed⟩ := bind_ok.mp weighed
  have ⟨⟨ancestor, consensus⟩, together, weighed⟩ := bind_ok.mp weighed
  have ⟨_, _, weighed⟩ := bind_ok.mp weighed
  have ⟨_, _, weighed⟩ := bind_ok.mp weighed
  have ⟨timeField, foundTime, weighed⟩ := bind_ok.mp weighed
  have ⟨time, readTime, weighed⟩ := bind_ok.mp weighed
  have ⟨valid, _, weighed⟩ := bind_ok.mp weighed
  have ⟨newHeld', newPow', newTop, newUp, newLength, newTopPow⟩ :=
    walkToTip_ok newPow newHeld newWalked
  have ⟨curHeld', curPow', curTop, curUp, curLength, curTopPow⟩ :=
    walkToTip_ok curPow curHeld curWalked
  have ⟨held, pow, newEnds, curEnds, newDown, curDown, even, apart, newEndsPow, curEndsPow, last⟩ :=
    walkTogether_ok newPow' curPow' newHeld' curHeld' together
  have oneTop : newTop = [] ∨ curTop = [] := by
    rcases Nat.eq_zero_or_pos newTop.length with short | long
    · exact .inl (List.eq_nil_of_length_eq_zero short)
    · refine .inr (List.eq_nil_of_length_eq_zero ?_)
      omega
  have newBranch := newUp.append newDown
  have curBranch := curUp.append curDown
  have disjoint : ∀ block ∈ newTop ++ newEnds, block ∉ curTop ++ curEnds := by
    rcases oneTop with rfl | rfl
    · intro block listed listed'
      have swapped : ∀ pair ∈ curEnds.zip newEnds, pair.1 ≠ pair.2 := by
        intro pair paired same
        have back : (pair.2, pair.1) ∈ newEnds.zip curEnds := by
          rw [← List.zip_swap]
          exact List.mem_map.mpr ⟨pair, paired, rfl⟩
        exact apart _ back same.symm
      exact curBranch.disjoint newDown even.symm swapped block listed' listed
    · exact newBranch.disjoint curDown even apart
  refine ⟨ancestor, curTop ++ curEnds, newTop ++ newEnds,
    ⟨curBranch, newBranch, disjoint, held, pow, ?_, ?_⟩, ?_⟩
  · intro block listed
    exact (List.mem_append.mp listed).elim (curTopPow block) (curEndsPow block)
  · intro block listed
    exact (List.mem_append.mp listed).elim (newTopPow block) (newEndsPow block)
  · cases valid with
    | false => exact absurd (Except.ok.inj weighed) (by simp)
    | true =>
      have ⟨newDifficulty, newSummed, weighed⟩ := bind_ok.mp weighed
      have ⟨curDifficulty, curSummed, weighed⟩ := bind_ok.mp weighed
      have shape := Option.some_inj.mp (Except.ok.inj weighed)
      subst shape
      rw [processFork_eq newBranch newHeld held] at newSummed
      rw [processFork_eq curBranch curHeld held] at curSummed
      refine ⟨rfl, rfl, newSummed, curSummed, ?_⟩
      intro curAbove newAbove
      have both : newEnds ≠ [] := by
        intro empty
        have empty' : curEnds = [] := List.eq_nil_of_length_eq_zero (by rw [← even, empty]; rfl)
        rcases oneTop with rfl | rfl
        · exact newAbove empty
        · exact curAbove empty'
      rw [last both] at foundTime
      exact bind_ok.mpr ⟨timeField, foundTime, readTime⟩

/-- Two heads whose numbers count the blocks above their meeting are weighed. -/
theorem weighForks_eq {ancestor : Block} {curBranch newBranch : List Block}
    (met : Meeting node cur new ancestor curBranch newBranch) (curHeld : node.cache.Holds cur)
    (newHeld : node.cache.Holds new)
    (curNumber : cur.blockNum.toNat = ancestor.blockNum.toNat + curBranch.length)
    (newNumber : new.blockNum.toNat = ancestor.blockNum.toNat + newBranch.length)
    (newRead : ∃ difficulty time, node.difficulty new.toBlockHeader = .ok difficulty ∧
      node.time new.toBlockHeader = .ok time)
    (read : ∃ difficulty time, node.difficulty ancestor.toBlockHeader = .ok difficulty ∧
      node.time ancestor.toBlockHeader = .ok time)
    (valid : ValidDown node clock newBranch) {newDifficulty curDifficulty : Number}
    (newSummed : newBranch.foldlM node.weigh (.int 0) = .ok newDifficulty)
    (curSummed : curBranch.foldlM node.weigh (.int 0) = .ok curDifficulty) :
    ∃ weights, node.weighForks clock cur new = .ok (some weights) ∧
      weights.newDifficulty = newDifficulty ∧ weights.curDifficulty = curDifficulty := by
  have newCount : ((new.blockNum.toNat : Int) - cur.blockNum.toNat).toNat =
      newBranch.length - curBranch.length := by omega
  have curCount : ((cur.blockNum.toNat : Int) - new.blockNum.toNat).toNat =
      curBranch.length - newBranch.length := by omega
  have ⟨newTip, newUp, newDown⟩ := met.new.split (Nat.sub_le newBranch.length curBranch.length)
  have ⟨curTip, curUp, curDown⟩ := met.cur.split (Nat.sub_le curBranch.length newBranch.length)
  have newEndsPow : ∀ block ∈ newBranch.drop (newBranch.length - curBranch.length),
      IsPow block := fun block listed => met.newPow block (List.mem_of_mem_drop listed)
  have curEndsPow : ∀ block ∈ curBranch.drop (curBranch.length - newBranch.length),
      IsPow block := fun block listed => met.curPow block (List.mem_of_mem_drop listed)
  have newTipPow := pow_of_child newDown met.pow newEndsPow
  have curTipPow := pow_of_child curDown met.pow curEndsPow
  have newWalked := walkToTip_eq newUp newTipPow fun block listed =>
    met.newPow block (List.mem_of_mem_take listed)
  have curWalked := walkToTip_eq curUp curTipPow fun block listed =>
    met.curPow block (List.mem_of_mem_take listed)
  rw [List.length_take, Nat.min_eq_left (Nat.sub_le _ _)] at newWalked curWalked
  have even : (newBranch.drop (newBranch.length - curBranch.length)).length =
      (curBranch.drop (curBranch.length - newBranch.length)).length := by
    rw [List.length_drop, List.length_drop]
    omega
  have apart : ∀ block ∈ newBranch.drop (newBranch.length - curBranch.length),
      block ∉ curBranch.drop (curBranch.length - newBranch.length) := fun block listed listed' =>
    met.apart block (List.mem_of_mem_drop listed) (List.mem_of_mem_drop listed')
  have together := walkTogether_eq new.fields newDown curDown even
    (length_le_depth newDown) (walked_held newUp newHeld) (walked_held curUp curHeld) apart met.pow
    newEndsPow curEndsPow
  have fieldsRead : ∃ difficultyField difficulty timeField time,
      field (if newBranch.drop (newBranch.length - curBranch.length) = [] then new.fields
        else ancestor.fields) idxDifficulty = .ok difficultyField ∧
      node.runtime.int difficultyField = .ok difficulty ∧
      field (if newBranch.drop (newBranch.length - curBranch.length) = [] then new.fields
        else ancestor.fields) idxTime = .ok timeField ∧
      node.runtime.float timeField = .ok time := by
    split
    · have ⟨difficulty, time, readDifficulty, readTime⟩ := newRead
      have ⟨difficultyField, found, readField⟩ := bind_ok.mp readDifficulty
      have ⟨timeField, found', readField'⟩ := bind_ok.mp readTime
      exact ⟨difficultyField, difficulty, timeField, time, found, readField, found', readField'⟩
    · have ⟨difficulty, time, readDifficulty, readTime⟩ := read
      have ⟨difficultyField, found, readField⟩ := bind_ok.mp readDifficulty
      have ⟨timeField, found', readField'⟩ := bind_ok.mp readTime
      exact ⟨difficultyField, difficulty, timeField, time, found, readField, found', readField'⟩
  have ⟨difficultyField, difficulty, timeField, time, found, readField, found', readField'⟩ :=
    fieldsRead
  have verified := verifyDifficulties_eq met.new newHeld met.held met.pow met.newPow valid
  rw [← processFork_eq met.new newHeld met.held] at newSummed
  rw [← processFork_eq met.cur curHeld met.held] at curSummed
  refine ⟨{
    newForkLen := new.blockNum.toNat - ancestor.blockNum.toNat
    curForkLen := cur.blockNum.toNat - ancestor.blockNum.toNat
    newDifficulty, curDifficulty
    commonAncestorTime := time }, ?_, rfl, rfl⟩
  unfold Node.weighForks Node.getBlockAtCurTip
  dsimp only
  rw [newCount, curCount, newWalked, curWalked]
  apply bind_ok.mpr
  refine ⟨newTip, rfl, ?_⟩
  apply bind_ok.mpr
  refine ⟨curTip, rfl, ?_⟩
  apply bind_ok.mpr
  refine ⟨_, together, ?_⟩
  apply bind_ok.mpr
  refine ⟨difficultyField, found, ?_⟩
  apply bind_ok.mpr
  refine ⟨difficulty, readField, ?_⟩
  apply bind_ok.mpr
  refine ⟨timeField, found', ?_⟩
  apply bind_ok.mpr
  refine ⟨time, readField', ?_⟩
  apply bind_ok.mpr
  refine ⟨true, verified, ?_⟩
  apply bind_ok.mpr
  refine ⟨newDifficulty, newSummed, ?_⟩
  apply bind_ok.mpr
  exact ⟨curDifficulty, curSummed, rfl⟩

/-- A new head is chosen at a switch to proof of work or by the weights. -/
theorem compareForks_true (won : node.compareForks now clock cur new = .ok true) :
    IsPow new ∧ (¬ IsPow cur ∧ new.previousBlockId = cur.headerSignature ∨
      IsPow cur ∧ ∃ newTime curTime weights, node.time new.toBlockHeader = .ok newTime ∧
        node.time cur.toBlockHeader = .ok curTime ∧
        node.weighForks clock cur new = .ok (some weights) ∧
        Node.chooseFork newTime curTime weights = .ok true) := by
  unfold Node.compareForks at won
  dsimp only at won
  split at won
  · contradiction
  · rename_i newPowered
    refine ⟨by simpa [IsPow] using newPowered, ?_⟩
    obtain ⟨newField, newFound, won⟩ := bind_ok.mp won
    obtain ⟨newTime, newRead, won⟩ := bind_ok.mp won
    split at won
    · exact absurd (Except.ok.inj won) (by decide)
    · split at won
      · rename_i curPowered
        split at won
        · rename_i direct
          exact .inl ⟨by simpa [IsPow] using curPowered, direct⟩
        · contradiction
      · rename_i curPowered
        obtain ⟨curField, curFound, won⟩ := bind_ok.mp won
        obtain ⟨curTime, curRead, won⟩ := bind_ok.mp won
        refine .inr ⟨by simpa [IsPow] using curPowered, newTime, curTime, ?_⟩
        split at won
        · rename_i weights weighed
          exact ⟨weights, bind_ok.mpr ⟨newField, newFound, newRead⟩,
            bind_ok.mpr ⟨curField, curFound, curRead⟩, weighed, won⟩
        · exact absurd (Except.ok.inj won) (by decide)
        · exact absurd (Except.ok.inj won) (by decide)
        · contradiction

/-- Where the sums are integers a choice is for more work, or for less time at equal work. -/
theorem chooseFork_true {newTime curTime : Float} {weights : Node.Weights} {newSum curSum : Int}
    (newIs : weights.newDifficulty = .int newSum) (curIs : weights.curDifficulty = .int curSum)
    (chosen : Node.chooseFork newTime curTime weights = .ok true) :
    curSum < newSum ∨ curSum = newSum ∧ 0 < weights.newForkLen ∧
      (0 < weights.curForkLen →
        Node.averageTime newTime weights.commonAncestorTime weights.newForkLen <
          Node.averageTime curTime weights.commonAncestorTime weights.curForkLen) := by
  unfold Node.chooseFork at chosen
  dsimp only at chosen
  rw [newIs, curIs] at chosen
  simp only [Number.lt, Number.eq, decide_eq_true_eq] at chosen
  split at chosen
  · rename_i more
    exact .inl more
  · split at chosen
    · exact absurd (Except.ok.inj chosen) (by decide)
    · split at chosen
      · rename_i same
        refine .inr ⟨same.symm, ?_⟩
        by_cases long : 0 < weights.newForkLen
        · refine ⟨long, ?_⟩
          intro curLong
          rw [if_pos long, if_pos curLong] at chosen
          exact of_decide_eq_true (Except.ok.inj chosen)
        · rw [if_neg long] at chosen
          contradiction
      · exact absurd (Except.ok.inj chosen) (by decide)

/-- More work is chosen. -/
theorem chooseFork_more {newTime curTime : Float} {weights : Node.Weights} {newSum curSum : Int}
    (newIs : weights.newDifficulty = .int newSum) (curIs : weights.curDifficulty = .int curSum)
    (more : curSum < newSum) : Node.chooseFork newTime curTime weights = .ok true := by
  unfold Node.chooseFork
  rw [newIs, curIs]
  simp only [Number.lt, decide_eq_true more, if_true]

/-- No difficulty that counts in a comparison of two heads is negative: a block that only one of
the heads descends from has none. -/
def Weighable (node : Node) (cur new : Block) : Prop :=
  ∀ block ∈ node.cache.forest.line cur ++ node.cache.forest.line new,
    ¬ (block ∈ node.cache.forest.line cur ∧ block ∈ node.cache.forest.line new) →
    ∀ difficulty, node.difficulty block.toBlockHeader = .ok difficulty → 0 ≤ difficulty

/-- The branches of weighable heads have no negative difficulty. -/
theorem Weighable.branches {ancestor : Block} {curBranch newBranch : List Block}
    (weighable : Weighable node cur new)
    (met : Meeting node cur new ancestor curBranch newBranch) :
    NonNegativeBranch node curBranch ∧ NonNegativeBranch node newBranch := by
  unfold Weighable at weighable
  rw [met.cur.line_eq, met.new.line_eq] at weighable
  constructor
  · intro block listed
    apply weighable block (by simp [listed])
    intro shared
    rcases List.mem_append.mp shared.2 with onNew | below
    · exact met.apart block onNew listed
    · exact met.cur.notMem_line listed below
  · intro block listed
    apply weighable block (by simp [listed])
    intro shared
    rcases List.mem_append.mp shared.1 with onCur | below
    · exact met.apart block listed onCur
    · exact met.new.notMem_line listed below

/-- What is found of two heads, the second of which wins: where they meet, their times, and more
work, or a smaller average at equal work. -/
theorem compareForks_work (curPow : IsPow cur) (curHeld : node.cache.Holds cur)
    (newHeld : node.cache.Holds new) (weighable : Weighable node cur new)
    (won : node.compareForks now clock cur new = .ok true) :
    ∃ ancestor curBranch newBranch, Meeting node cur new ancestor curBranch newBranch ∧
      (node.branchWork curBranch < node.branchWork newBranch ∨
        node.branchWork curBranch = node.branchWork newBranch ∧ curBranch ≠ [] ∧ newBranch ≠ [] ∧
        ∃ newTime curTime ancestorTime, node.time new.toBlockHeader = .ok newTime ∧
          node.time cur.toBlockHeader = .ok curTime ∧
          node.time ancestor.toBlockHeader = .ok ancestorTime ∧
          (0 : Int) < new.blockNum.toNat - ancestor.blockNum.toNat ∧
          ((0 : Int) < cur.blockNum.toNat - ancestor.blockNum.toNat →
            Node.averageTime newTime ancestorTime
                (new.blockNum.toNat - ancestor.blockNum.toNat) <
              Node.averageTime curTime ancestorTime
                (cur.blockNum.toNat - ancestor.blockNum.toNat))) := by
  have ⟨newPow, outcome⟩ := compareForks_true won
  have ⟨_, newTime, curTime, weights, newRead, curRead, weighed, chosen⟩ :=
    outcome.resolve_left fun switch => switch.1 curPow
  have ⟨ancestor, curBranch, newBranch, met, newLen, curLen, newSummed, curSummed, timed⟩ :=
    weighForks_ok curPow newPow curHeld newHeld weighed
  have branches := weighable.branches met
  have ⟨curSum, curIs, curWork⟩ := sum_of_nonNegative met.curPow branches.1 curSummed
  have ⟨newSum, newIs, newWork⟩ := sum_of_nonNegative met.newPow branches.2 newSummed
  refine ⟨ancestor, curBranch, newBranch, met, ?_⟩
  rw [← curWork, ← newWork]
  rcases chooseFork_true newIs curIs chosen with more | ⟨same, long, faster⟩
  · exact .inl (by exact_mod_cast more)
  · have newAbove : newBranch ≠ [] := by
      intro empty
      rw [met.new.nil_iff.mp empty] at newLen
      omega
    have curAbove : curBranch ≠ [] := by
      intro empty
      subst empty
      cases newBranch with
      | nil => exact newAbove rfl
      | cons head rest =>
        have ⟨difficulty, read⟩ := readable_of_foldlM newSummed head List.mem_cons_self
        have powered : isPow head.fields = true := met.newPow head List.mem_cons_self
        have positive : 0 < node.work head := by
          rw [Node.work, if_pos powered, read]
          positivity
        have others : 0 ≤ (rest.map node.work).sum := by
          apply List.sum_nonneg
          intro work listed
          have ⟨block, _, is⟩ := List.mem_map.mp listed
          exact is ▸ work_nonneg node block
        have zero : (curSum : Rat) = 0 := curWork.trans rfl
        rw [Node.branchWork, List.map_cons, List.sum_cons, ← same, zero] at newWork
        linarith
    rw [newLen, curLen] at faster
    rw [newLen] at long
    exact .inr ⟨by rw [same], curAbove, newAbove, newTime, curTime, weights.commonAncestorTime,
      newRead, curRead, timed curAbove newAbove, long, faster⟩

end Comparison

end Creditcoin.PoW
