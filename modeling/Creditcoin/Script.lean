import Creditcoin.Status

/-!
# Scripts

A script lists what is submitted to a node, block by block. Playing it executes the applicator,
so every script is a run of a chain, and a run is known to exist once its script was played.
-/

namespace Creditcoin

open Lib

/-- What is done to a node. -/
inductive Turn where
  /-- A transaction with its signer and nonce is submitted. -/
  | submit (signerPublicKey nonce : Text) (payload : Json)
  /-- The block is committed. -/
  | commit

/-- The environment a node offers to a transaction: the records of the last committed block are
listed in one page. -/
def Chain.serve (node : Env) (chain : Chain) (signerPublicKey nonce : Text) : Env :=
  { node with
    ctx := {}
    signerPublicKey := signerPublicKey
    nonce := nonce
    tip := chain.tip
    getStatesByPrefix := fun start => .ok [chain.records start] }

/-- What a turn is to the chain. -/
def Chain.event (node : Env) (chain : Chain) : Turn → Event
  | .submit signerPublicKey nonce payload =>
    .transaction (chain.serve node signerPublicKey nonce) payload
  | .commit => .commit

/-- The nonce of a turn. -/
def Turn.nonce : Turn → Option Text
  | .submit _ nonce _ => some nonce
  | .commit => none

/-- The chain after a turn. -/
def Chain.play (sha : Sha512) (node : Env) (chain : Chain) : Turn → Chain
  | .submit signerPublicKey nonce payload =>
    match apply sha payload (chain.serve node signerPublicKey nonce) ⟨chain.context, ∅⟩,
        payload.command with
    | .ok (_, memory), .ok command =>
      { chain with
        context := memory.state
        housekept := chain.housekept || command.isExplicitHousekeeping }
    | _, _ => chain
  | .commit => ⟨chain.context, chain.context, chain.tip + 1, false⟩

/-- The chain after a script. -/
def Chain.plays (sha : Sha512) (node : Env) (chain : Chain) (script : List Turn) : Chain :=
  script.foldl (Chain.play sha node) chain

/-- The steps of a script. -/
def Chain.steps (sha : Sha512) (node : Env) (chain : Chain) : List Turn → List ChainStep
  | [] => []
  | turn :: script =>
    ⟨chain, chain.event node turn, chain.play sha node turn⟩ ::
      Chain.steps sha node (chain.play sha node turn) script

/-- The signer and the command of a turn that is accepted. -/
def Chain.accepts (sha : Sha512) (node : Env) (chain : Chain) : Turn → Option (Text × Command)
  | .submit signerPublicKey nonce payload =>
    let env := chain.serve node signerPublicKey nonce
    match apply sha payload env ⟨chain.context, ∅⟩, env.sighash sha, payload.command with
    | .ok _, .ok signer, .ok command => some (signer, command)
    | _, _, _ => none
  | .commit => none

/-- Whether an accepted turn passes a check of the chain, the environment and the command. -/
def Chain.passes (sha : Sha512) (node : Env) (check : Chain → Env → Text → Command → Bool)
    (chain : Chain) : Turn → Bool
  | .submit signerPublicKey nonce payload =>
    match chain.accepts sha node (.submit signerPublicKey nonce payload) with
    | some (signer, command) =>
      check chain (chain.serve node signerPublicKey nonce) signer command
    | none => true
  | .commit => true

/-- Whether every accepted turn of a script passes a check. -/
def Chain.checks (sha : Sha512) (node : Env) (check : Chain → Env → Text → Command → Bool)
    (chain : Chain) : List Turn → Bool
  | [] => true
  | turn :: script =>
    chain.passes sha node check turn &&
      Chain.checks sha node check (chain.play sha node turn) script

/-- A deal order names an offer, and an explicit `Housekeeping` is the first of its block. -/
def Command.ordinary (sha : Sha512) (chain : Chain) : Command → Bool
  | .addDealOrder offerId _ => sha.kindOf offerId = some .offer
  | .housekeeping blockIdx => blockIdx = 0 || !chain.housekept
  | _ => true

/-- Whether a command is ordinary on every chain. -/
def Command.plain (sha : Sha512) : Command → Bool
  | .addDealOrder offerId _ => sha.kindOf offerId = some .offer
  | .housekeeping blockIdx => blockIdx = 0
  | _ => true

/-- Whether the command of a turn passes a check, whatever becomes of the turn. -/
def Turn.asks (check : Command → Bool) : Turn → Bool
  | .submit _ _ payload =>
    match payload.command with
    | .ok command => check command
    | .error _ => true
  | .commit => true

section Script

variable {sha : Sha512} {node : Env} {chain : Chain} {turn : Turn} {script : List Turn}

/-- A node answers for its chain. -/
theorem Chain.serve_serves (signerPublicKey nonce : Text) :
    chain.Serves (chain.serve node signerPublicKey nonce) where
  live := ⟨rfl, rfl, rfl⟩
  tip := rfl
  listing := by
    intro start pages listed
    cases listed
    rw [List.flatten_singleton]

/-- A turn is a step. -/
theorem Chain.play_step :
    Chain.Step sha chain (chain.event node turn) (chain.play sha node turn) := by
  cases turn with
  | submit signerPublicKey nonce payload =>
    have serves : chain.Serves (chain.serve node signerPublicKey nonce) :=
      Chain.serve_serves signerPublicKey nonce
    cases ran : apply sha payload (chain.serve node signerPublicKey nonce) ⟨chain.context, ∅⟩ with
    | ok result =>
      obtain ⟨_, memory⟩ := result
      obtain ⟨_, command, _, read, _⟩ := apply_executed serves.live ran
      have played : chain.play sha node (.submit signerPublicKey nonce payload) =
          { chain with
            context := memory.state
            housekept := chain.housekept || command.isExplicitHousekeeping } := by
        simp only [Chain.play, ran, read]
      rw [played]
      exact .accepted serves ran read
    | error failure =>
      have played : chain.play sha node (.submit signerPublicKey nonce payload) = chain := by
        simp only [Chain.play, ran]
      rw [played]
      exact .rejected serves ran
  | commit => exact .commit

/-- A script is a run. -/
theorem Chain.steps_run :
    Run (Chain.Step sha) chain (chain.steps sha node script) (chain.plays sha node script) := by
  induction script generalizing chain with
  | nil => exact .nil
  | cons turn script ih =>
    have first : Run (Chain.Step sha) chain
        ([] ++ [⟨chain, chain.event node turn, chain.play sha node turn⟩])
        (chain.play sha node turn) := Run.snoc .nil Chain.play_step
    exact first.append ih

/-- The nonces of a script. -/
theorem Chain.steps_nonces :
    (chain.steps sha node script).filterMap (fun taken => taken.label.nonce) =
      script.filterMap Turn.nonce := by
  induction script generalizing chain with
  | nil => rfl
  | cons turn script ih =>
    rw [Chain.steps, List.filterMap_cons, List.filterMap_cons, ih]
    cases turn with
    | submit signerPublicKey nonce payload => rfl
    | commit => rfl

/-- The chain after an empty script. -/
@[simp] theorem Chain.plays_nil : chain.plays sha node [] = chain := rfl

/-- The chain after a turn and a script. -/
@[simp] theorem Chain.plays_cons :
    chain.plays sha node (turn :: script) = (chain.play sha node turn).plays sha node script := rfl

/-- The steps of an empty script. -/
@[simp] theorem Chain.steps_nil : chain.steps sha node [] = [] := rfl

/-- The steps of a turn and a script. -/
@[simp] theorem Chain.steps_cons :
    chain.steps sha node (turn :: script) =
      ⟨chain, chain.event node turn, chain.play sha node turn⟩ ::
        (chain.play sha node turn).steps sha node script := rfl

/-- The steps of a script in two parts. -/
theorem Chain.steps_append {later : List Turn} :
    chain.steps sha node (script ++ later) = chain.steps sha node script ++
      (chain.plays sha node script).steps sha node later := by
  induction script generalizing chain with
  | nil => rfl
  | cons turn script ih => rw [List.cons_append, Chain.steps, ih]; rfl

/-- The chain after a script in two parts. -/
theorem Chain.plays_append {later : List Turn} :
    chain.plays sha node (script ++ later) = (chain.plays sha node script).plays sha node later :=
  List.foldl_append

/-- The chain after one more turn of a script. -/
theorem Chain.plays_take {place : Nat} {later : List Turn}
    (split : script.drop place = turn :: later) :
    chain.plays sha node (script.take (place + 1)) =
      (chain.plays sha node (script.take place)).play sha node turn := by
  have stands : script[place]? = some turn := by
    have first : (script.drop place)[0]? = some turn := by rw [split]; rfl
    rwa [List.getElem?_drop, Nat.add_zero] at first
  rw [List.take_add_one, stands, Chain.plays_append]
  rfl

/-- A turn after a script is a step of the run. -/
theorem Chain.turn_mem {later : List Turn} :
    let before := chain.plays sha node script
    ⟨before, before.event node turn, before.play sha node turn⟩ ∈
      chain.steps sha node (script ++ turn :: later) := by
  rw [Chain.steps_append]
  exact List.mem_append_right _ List.mem_cons_self

/-- A turn of a script is a step of its run. -/
theorem Chain.step_mem {place : Nat} {later : List Turn}
    (split : script.drop place = turn :: later) :
    let before := chain.plays sha node (script.take place)
    ⟨before, before.event node turn, before.play sha node turn⟩ ∈ chain.steps sha node script := by
  have parts : chain.steps sha node script =
      chain.steps sha node (script.take place ++ turn :: later) := by
    rw [← split, List.take_append_drop]
  rw [parts]
  exact Chain.turn_mem

/-- A script in two parts passes a check when both parts do. -/
theorem Chain.checks_append {check : Chain → Env → Text → Command → Bool} {later : List Turn} :
    chain.checks sha node check (script ++ later) = (chain.checks sha node check script &&
      (chain.plays sha node script).checks sha node check later) := by
  induction script generalizing chain with
  | nil => rfl
  | cons turn script ih =>
    rw [List.cons_append, Chain.checks, Chain.checks, ih, Bool.and_assoc, Chain.plays_cons]

/-- A plain command is ordinary. -/
theorem Command.plain_ordinary {command : Command} (plain : command.plain sha = true) :
    command.ordinary sha chain = true := by
  cases command with
  | addDealOrder offerId expiration => exact plain
  | housekeeping blockIdx => exact Bool.or_eq_true_iff.mpr (.inl plain)
  | _ => rfl

/-- Turns that ask for plain commands only pass without being run. -/
theorem Chain.checks_plain {check : Command → Bool}
    (asks : (script.all (Turn.asks fun command => command.plain sha && check command)) = true) :
    chain.checks sha node (fun chain _ _ command => command.ordinary sha chain && check command)
      script = true := by
  induction script generalizing chain with
  | nil => rfl
  | cons turn script ih =>
    rw [List.all_cons, Bool.and_eq_true] at asks
    rw [Chain.checks, Bool.and_eq_true]
    refine ⟨?_, ih asks.2⟩
    cases turn with
    | submit signerPublicKey nonce payload =>
      unfold Chain.passes Chain.accepts
      dsimp only
      split
      · rename_i accepted
        split at accepted
        · rename_i signer command' ran signed read
          obtain ⟨rfl, rfl⟩ := Prod.mk.inj (Option.some.inj accepted)
          have passes := asks.1
          rw [Turn.asks, read, Bool.and_eq_true] at passes
          exact Bool.and_eq_true_iff.mpr ⟨Command.plain_ordinary passes.1, passes.2⟩
        · cases accepted
      · rfl
    | commit => rfl

/-- A turn that is accepted succeeds. -/
theorem Chain.accepts_succeeds {signerPublicKey nonce signer : Text} {payload : Json}
    {command : Command}
    (accepted : chain.accepts sha node (.submit signerPublicKey nonce payload) =
      some (signer, command)) :
    Succeeds sha ⟨chain, chain.event node (.submit signerPublicKey nonce payload),
      chain.play sha node (.submit signerPublicKey nonce payload)⟩
      (chain.serve node signerPublicKey nonce) signer command := by
  unfold Chain.accepts at accepted
  dsimp only at accepted
  split at accepted
  · rename_i result signer' command' ran signed read
    obtain ⟨rfl, rfl⟩ := Prod.mk.inj (Option.some.inj accepted)
    exact ⟨⟨payload, result.2, rfl, read, ran⟩, signed⟩
  · cases accepted

/-- A turn that is accepted is executed. -/
theorem Chain.accepts_executed {signerPublicKey nonce signer : Text} {payload : Json}
    {command : Command}
    (accepted : chain.accepts sha node (.submit signerPublicKey nonce payload) =
      some (signer, command)) :
    Executed sha (chain.serve node signerPublicKey nonce) signer chain.context command
      (chain.play sha node (.submit signerPublicKey nonce payload)).context := by
  have step : Chain.Step sha chain (chain.event node (.submit signerPublicKey nonce payload))
    (chain.play sha node (.submit signerPublicKey nonce payload)) := Chain.play_step
  exact ((Chain.accepts_succeeds accepted).executed step).2

/-- A successful turn passes the check. -/
theorem Chain.passes_succeeds {check : Chain → Env → Text → Command → Bool} {env : Env}
    {signer : Text} {command : Command} (passes : chain.passes sha node check turn = true)
    (succeeds : Succeeds sha ⟨chain, chain.event node turn, chain.play sha node turn⟩ env signer
      command) : check chain env signer command = true := by
  obtain ⟨⟨payload, memory, label, read, ran⟩, signed⟩ := succeeds
  cases turn with
  | submit signerPublicKey nonce submitted =>
    obtain ⟨rfl, rfl⟩ := Event.transaction.inj label
    dsimp only at ran
    simpa only [Chain.passes, Chain.accepts, ran, signed, read] using passes
  | commit => cases label

/-- What a script checks of its accepted turns holds of every successful step. -/
theorem Chain.checks_succeeds {check : Chain → Env → Text → Command → Bool}
    (checked : chain.checks sha node check script = true) :
    ∀ taken ∈ chain.steps sha node script, ∀ env signer command,
      Succeeds sha taken env signer command → check taken.before env signer command = true := by
  induction script generalizing chain with
  | nil =>
    intro taken listed
    cases listed
  | cons turn script ih =>
    rw [Chain.checks, Bool.and_eq_true] at checked
    intro taken listed env signer command succeeds
    rcases List.mem_cons.mp listed with rfl | later
    · exact Chain.passes_succeeds checked.1 succeeds
    · exact ih checked.2 taken later env signer command succeeds

/-- A script of ordinary commands names offers and keeps house once a block. -/
theorem Chain.checks_ordinary {check : Chain → Env → Text → Command → Bool}
    (checked : chain.checks sha node (fun chain env signer command =>
      command.ordinary sha chain && check chain env signer command) script = true) :
    ∀ taken ∈ chain.steps sha node script, NamesOffers sha taken ∧ HousekeepsOnce sha taken ∧
      ∀ env signer command, Succeeds sha taken env signer command →
        check taken.before env signer command = true := by
  intro taken listed
  have passes := fun env signer command =>
    Chain.checks_succeeds checked taken listed env signer command
  simp only [Bool.and_eq_true] at passes
  refine ⟨fun env signer command succeeds => ?_, fun env signer blockIdx succeeds explicit => ?_,
    fun env signer command succeeds => (passes env signer command succeeds).2⟩
  · have ordinary := (passes env signer command succeeds).1
    cases command with
    | addDealOrder offerId expiration =>
      have named : sha.kindOf offerId = some .offer := of_decide_eq_true ordinary
      exact named
    | _ => trivial
  · have ordinary := (passes env signer _ succeeds).1
    simpa [Command.ordinary, explicit] using ordinary

end Script

/-! ## A sample loan -/

/-- The public key of the investor of the sample loan. -/
def investorKey : Text := "02".toList ++ List.replicate 64 '1'

/-- The public key of the fundraiser of the sample loan. -/
def fundraiserKey : Text := "02".toList ++ List.replicate 64 '2'

/-- The public key of the collector of the sample loan. -/
def collectorKey : Text := "02".toList ++ List.replicate 64 '3'

/-- A number in lower case hexadecimal, with leading zeros. -/
def hexText (width number : Nat) : Text :=
  (List.range width).map fun place => Nat.digitChar (number / 16 ^ (width - 1 - place) % 16)

/-- The digests of all messages that are hashed for the sample loan, in two halves. -/
def sampleDigests : List (Text × Nat × Nat) :=
  [("CREDITCOIN".toList,
      0x8a1a04c3633bc3188b8b06c0b95f235403728dfb8122073538c9f0c9611cc0f5,
      0xc657448c5f70061177523be3b9e92b746ad6777845a594c66fe9fa1dd46b918f),
    (investorKey,
      0xa42f5d5ae1e503f1c00bd0efafc8cba02404fe79a9f7a62bdaa792b69fe0489c,
      0xbbfcf1b61d891365c3b14afd0efc0fdb383ad9aa919f27a82446daca3d315573),
    (fundraiserKey,
      0x3f270b1754ac32ee7dec5800b02977616aef0b046e4490ff900a5cb680777c24,
      0x6d56e9c93a8c075033ab45d935dab5d755bccb5eae78d821f5bc5cc5a9a8894e),
    (collectorKey,
      0xc9d3af82113f6a3d74b834149374ef5823a840d23b7f2df5569c5b14af78a43f,
      0xbe877da76b5af7149b0e3b414890110d4a79e2fd641f31d884237a963b317346),
    ("ethereum0x1rinkeby".toList,
      0x8ac431d7f21a50dd36b18c97d999163f68b0f86456f7438210defb4ac24e7348,
      0x1ad6024c03157ecf16e67379718f2a3778180bcb4c1c3670b02bb69863ae74e9),
    ("ethereum0x2rinkeby".toList,
      0xd66cf5d3c1f15b5ee7febb186a08eecedbc416d5c24904dc696898f54c48950f,
      0xe4039cd0f41a0c8b040767e67f281a8b596e62762a05cc28e5a6e03aa6883261),
    ("ethereum0x3rinkeby".toList,
      0x0303cbd76043cf07192737c799be393608098af52a82755aad3545acf42fa6a1,
      0x6497b31e5bd21e78c301ef3f370c36bbcb8822f57960fc2b2518d0a8f1fccb62),
    ("1".toList,
      0x4dff4ea340f0a823f15d3f4f01ab62eae0e5da579ccb851f8db9dfe84c58b2b3,
      0x7b89903a740e1ee172da793a6e79d560e5f7f9bd058a12a280433ed6fa46510a),
    ("2".toList,
      0x40b244112641dd78dd4f93b6c9190dd46e0099194d5a44257b7efad6ef9ff468,
      0x3da1eda0244448cb343aa688f5d3efd7314dafe580ac0bcbf115aeca9e8dc114),
    ("3".toList,
      0x3bafbf08882a2d10133093a1b8433f50563b93c14acd05b79028eb1d12799027,
      0x241450980651994501423a66c276ae26c43b739bc65c4e16b10c3af6c202aebb),
    ("4".toList,
      0xa321d8b405e3ef2604959847b36d171eebebc4a8941dc70a4784935a4fca5d58,
      0x13de84dfa049f06549aa61b20848c1633ce81b675286ea8fb53db240d831c568),
    ("5".toList,
      0x06df05371981a237d0ed11472fae7c94c9ac0eff1d05413516710d17b10a4fb6,
      0xf4517bda4a695f02d0a73dd4db543b4653df28f5d09dab86f92ffb9b86d01e25),
    ("6".toList,
      0x3c9ad55147a7144f6067327c3b82ea70e7c5426add9ceea4d07dc2902239bf9e,
      0x049b88625eb65d014a7718f79354608cab0921782c643f0208983fffa3582e40),
    ("7".toList,
      0xf05210c5b4263f0ec4c3995bdab458d81d3953f354a9109520f159db1e8800bc,
      0xd45b97c56dce90a1fc27ab03e0b8a9af8673747023c406299374116d6f966981),
    ("8".toList,
      0xbc23b8b01772d2dd67efb8fe1a5e6bd0f44b97c36101be6cc09f253b53e68d67,
      0xa22e4643068dfd1341980134ea57570acf65e306e4d96cef4d560384894c88a4),
    ("9".toList,
      0x0dc526d8c4fa04084f4b2a6433f4cd14664b93df9fb8a9e00b77ba890b83704d,
      0x24944c93caa692b51085bb476f81852c27e793600f137ae3929018cd4c8f1a45),
    ("10".toList,
      0x3c11e4f316c956a27655902dc1a19b925b8887d59eff791eea63edc8a05454ec,
      0x594d5eb0f40ae151df87acd6e101761ecc5bb0d3b829bf3a85f5432493b22f37),
    ("11".toList,
      0x74a49c698dbd3c12e36b0b287447d833f74f3937ff132ebff7054baa18623c35,
      0xa705bb18b82e2ac0384b5127db97016e63609f712bc90e3506cfbea97599f46f),
    ("12".toList,
      0x5aadb45520dcd8726b2822a7a78bb53d794f557199d5d4abdedd2c55a4bd6ca7,
      0x3607605c558de3db80c8e86c3196484566163ed1327e82e8b6757d1932113cb8),
    ("13".toList,
      0x413f2ba78c7ed4ccefbe0cc4f51d3eb5cb15f13fec999de4884be92507674666,
      0x3aa5d34476a3df4a8729fd8eea01defa4f3f66e99bf943f4d84382d64bbbfa9e),
    ("14".toList,
      0x5f3a799ba20c20a225f75d4fe2acab79912dfcd2f2b333bf062b37acbb646338,
      0x8c344430d5ba1e9fd318d3ed8263074e999e2b2e811bc51c5e2dfea4e2f32e58),
    ("15".toList,
      0x9a6398cffc55ade35b39f1e41cf46c7c491744961853ff9571d09abb55a78976,
      0xf72c34cd7a8787674efa1c226eaa2494dbd0a133169c9e4e2369a7d2d02de31a),
    ("16".toList,
      0x7c73947fa1821233428dd9684e52ce908130a91b903d5179f731c9ded61f06ce,
      0xcca427a7a1a5aabefaa35be5a6dd84efc03f2cb779f339b0766481eabb241e0c),
    ("17".toList,
      0xdc2de67eb248dcdc50c63aabd1bca8335ad01106dd8ff720590077c161f558a7,
      0xb61db3c56b3a32997597a3db98fd191c3e9e7fdf555aac1525f0b5342cac4088),
    ("18".toList,
      0xf107ba2da059fa640eccb9533e859a6435f6b83aa2e0636a47444dfdcde33a6e,
      0x1f3cc1c9437bcfd42675af265a0d0b9d66c86c9e66347aa41534204745e41fb8),
    ("19".toList,
      0x8d89aa701de5a35b24cfadbd2088986ae13311d1a7c63abe5c780c62bc939a05,
      0x77c3a78cf7ee4951c1b09f6849074c21ca1f7023e89bee683c1dbb2134a984d0),
    ("ethereum1rinkeby".toList,
      0x4f1a941264c2322ecfd222e4ca8776459e2e424247868350e044d6e53f02b8ee,
      0x3baf693b43b65ee5e1032ca3bfd40520c4f2b39802733018ed6ae7eb13ff1e3e),
    ("ethereum2rinkeby".toList,
      0x7ceb03c7b2ddc95e638ec271b7ce1d2e1421b7b0d5d99ac303b31fd783500555,
      0x4d5ca85323f946c2df73b8be29788dd7b1930106f865dff59a48437e4284eb57),
    ("ethereum3rinkeby".toList,
      0xa8fb03f519fd75909b1bb91ec6ea2fc773a2beeb2929920a610272f086c55e2e,
      0x982b68e9130e725c5038b51fbf3bf9b8bec46d2799804f9a7ef2ca6a6931141e),
    (hexText 70 0x8a1a04300097c56dce90a1fc27ab03e0b8a9af8673747023c406299374116d6f966981 ++
      hexText 70 0x8a1a0440004643068dfd1341980134ea57570acf65e306e4d96cef4d560384894c88a4,
      0x325227a064fdf653976214f810631cdc826d3662105f6c6c3b2e560a835beef9,
      0xa57ffdfd5d2641cd09729adddc3aceb6f0be115edefc5e85a956c8f6ef9e5d15),
    (hexText 70 0x8a1a047000fdfd5d2641cd09729adddc3aceb6f0be115edefc5e85a956c8f6ef9e5d15,
      0x64ea961d40e2ce907d752bdb6651e90b82bf07bf4b2fcfc8b376009145f50968,
      0xc66f1bb11f784c340109c339ebff4dba1449288442e56e35cbe3cbc4e6718c08),
    ("ethereum".toList ++
      hexText 70 0x8a1a042000693b43b65ee5e1032ca3bfd40520c4f2b39802733018ed6ae7eb13ff1e3e ++
      hexText 70 0x8a1a044000d34476a3df4a8729fd8eea01defa4f3f66e99bf943f4d84382d64bbbfa9e,
      0x15ed728002095568a745e094ded28b672d2d3176587beb58b890b36b55bcb083,
      0xe23d16a570faddfdec407a0c4e071a91d40ab9341210bed31e322eab4beaca3f),
    (hexText 70 0x8a1a04100016a570faddfdec407a0c4e071a91d40ab9341210bed31e322eab4beaca3f,
      0xe3d3710e3ca81a4e1eee161aa39a01099107c68ab9f56f9a2d157996efb906c3,
      0xed5f8802f0a13541d7fd57ff94931095cfb90de2bdf0a943885ee57fa479c798),
    ("ethereum".toList ++
      hexText 70 0x8a1a040000f1b61d891365c3b14afd0efc0fdb383ad9aa919f27a82446daca3d315573 ++
      hexText 70 0x8a1a044000d34476a3df4a8729fd8eea01defa4f3f66e99bf943f4d84382d64bbbfa9e,
      0x633c5e7efe00adfb7f7e49ecec8fb68ce0b97651ea1c6c716ab71438345dfaa9,
      0xb72e51e3a41371f4e7ca7f3b8e96e89ba93a313e21b3fb46c3b304ac188044ab),
    (hexText 70 0x8a1a04100051e3a41371f4e7ca7f3b8e96e89ba93a313e21b3fb46c3b304ac188044ab,
      0x756f6bdf88ddccff3e6eb977301f9f852631b9bc319f01f1d55005c0ad6f7836,
      0x6e31cd768dfdcae6b47f261f873344be4d6e33773e2f9b0012b591373ec2e1ef)]

/-- The digest of a message of the sample loan, and zeros for any other message. -/
def sampleDigest (message : Text) : Text :=
  let (high, low) :=
    ((sampleDigests.find? fun entry => entry.1 == message).map Prod.snd).getD (0, 0)
  hexText 64 high ++ hexText 64 low

/-- Hexadecimal text has hexadecimal digits. -/
theorem hexText_isHex (width number : Nat) : Text.isHex (hexText width number) = true := by
  have digits : ∀ digit < 16, Text.isHexDigit (Nat.digitChar digit) = true := by decide
  simp only [Text.isHex, hexText, List.all_map, List.all_eq_true, Function.comp_apply]
  intro place _
  exact digits _ (Nat.mod_lt _ (by decide))

/-- A digest has a hundred and twenty-eight characters. -/
theorem sampleDigest_length (message : Text) : (sampleDigest message).length = 128 := by
  simp [sampleDigest, hexText]

/-- A digest is hexadecimal. -/
theorem sampleDigest_isHex (message : Text) : Text.isHex (sampleDigest message) = true := by
  have halves (high low : Nat) : Text.isHex (hexText 64 high ++ hexText 64 low) = true := by
    rw [Text.isHex, List.all_append, Bool.and_eq_true]
    exact ⟨hexText_isHex 64 high, hexText_isHex 64 low⟩
  exact halves _ _

/-- The digest of the name of the family starts with the namespace. -/
theorem sampleDigest_namespace : (sampleDigest "CREDITCOIN".toList).take 6 = "8a1a04".toList := by
  decide

/-- SHA-512 on the messages of the sample loan. -/
def sample : Sha512 where
  digest := sampleDigest
  digest_length := sampleDigest_length
  digest_isHex := sampleDigest_isHex
  digest_namespace := sampleDigest_namespace

/-- A node whose gateway confirms every payment and whose validator has no settings. -/
def sampleNode : Env where
  ctx := {}
  signerPublicKey := []
  nonce := []
  familyVersion := "1.7".toList
  blockSignature := []
  tip := 0
  getStatesByPrefix := fun _ => .ok []
  getSigByNum := fun _ => .ok investorKey
  getRewardBlockSignatures := fun _ _ _ => .ok []
  settings := []
  updatedSettings := []
  v2block := 0
  localGateway := fun _ => .ok (some "good".toList)
  externalGatewayAddress := []
  externalGateway := fun _ => .ok none
  fixedPower := fun _ => "1.000000".toList
  dealExpFixBlock := 278890
  blocks := []
  tipCurrentState := ∅
  transitioningState := ∅

/-- A payload with a verb and text parameters. -/
def call (verb : String) (parameters : List (String × Text)) : Json :=
  .object (("v".toList, .string verb.toList) ::
    parameters.map fun parameter => (parameter.1.toList, .string parameter.2))

/-- The payload of a `Housekeeping`. -/
def keepHouse (blockIdx : String) : Json := call "Housekeeping" [("p1", blockIdx.toList)]

/-- The key of an address of the sample loan. -/
def sampleAddress (address : String) : Text :=
  sample.makeAddress .addr ("ethereum".toList ++ address.toList ++ "rinkeby".toList)

/-- The key of a transfer of the sample loan. -/
def sampleTransfer (blockchainTxId : String) : Text :=
  sample.makeAddress .transfer ("ethereum".toList ++ blockchainTxId.toList ++ "rinkeby".toList)

/-- The offer of the sample loan. -/
def sampleOffer : Text :=
  sample.makeAddress .offer (sample.makeAddress .askOrder "7".toList ++
    sample.makeAddress .bidOrder "8".toList)

/-- The deal order of the sample loan. -/
def sampleDeal : Text := sample.makeAddress .dealOrder sampleOffer

/-- A repayment order of the sample loan. -/
def sampleRepayment (nonce : String) : Text := sample.makeAddress .repaymentOrder nonce.toList

/-- A party collects coins. -/
def collect (key : Text) (nonce : String) : Turn :=
  .submit key nonce.toList (call "CollectCoins"
    [("p1", "0x1".toList), ("p2", "1000000000000000000".toList), ("p3", nonce.toList)])

/-- A party registers an address. -/
def register (key : Text) (nonce address : String) : Turn :=
  .submit key nonce.toList (call "RegisterAddress"
    [("p1", "ethereum".toList), ("p2", address.toList), ("p3", "rinkeby".toList)])

/-- A party orders a loan of the sample's terms. -/
def order (key : Text) (nonce verb address : String) : Turn :=
  .submit key nonce.toList (call verb
    [("p1", sampleAddress address), ("p2", "1000".toList), ("p3", "100".toList),
      ("p4", "10".toList), ("p5", "1".toList), ("p6", "100".toList)])

/-- A party calls a command with record keys and a term. -/
def request (key : Text) (nonce verb : String) (p1 p2 : Text) : Turn :=
  .submit key nonce.toList (call verb [("p1", p1), ("p2", p2), ("p3", "100".toList)])

/-- A party registers a transfer. -/
def transfer (key : Text) (nonce gain : String) (orderId : Text) (blockchainTxId : String) :
    Turn :=
  .submit key nonce.toList (call "RegisterTransfer"
    [("p1", gain.toList), ("p2", orderId), ("p3", blockchainTxId.toList)])

/-- The collector orders the purchase of the sample loan. -/
def purchase (nonce amount : String) : Turn :=
  .submit collectorKey nonce.toList (call "AddRepaymentOrder"
    [("p1", sampleDeal), ("p2", sampleAddress "0x3"), ("p3", amount.toList),
      ("p4", "100".toList)])

/-- The sample loan up to its deal order. -/
def dealMade : List Turn :=
  [collect investorKey "1", collect fundraiserKey "2", collect collectorKey "3",
    register investorKey "4" "0x1", register fundraiserKey "5" "0x2",
    register collectorKey "6" "0x3", order investorKey "7" "AddAskOrder" "0x1",
    order fundraiserKey "8" "AddBidOrder" "0x2",
    request investorKey "9" "AddOffer" (sample.makeAddress .askOrder "7".toList)
      (sample.makeAddress .bidOrder "8".toList),
    request fundraiserKey "10" "AddDealOrder" sampleOffer "100".toList,
    transfer investorKey "11" "0" sampleDeal "1"]

/-- The sample loan up to its payment. -/
def loanPaid : List Turn :=
  dealMade ++ [request investorKey "12" "CompleteDealOrder" sampleDeal (sampleTransfer "1")]

/-- The sample loan, sold by the order that the investor accepted. -/
def loanSold : List Turn :=
  loanPaid ++ [purchase "13" "500",
    request investorKey "14" "CompleteRepaymentOrder" (sampleRepayment "13") [],
    transfer collectorKey "15" "0" (sampleRepayment "13") "2",
    request collectorKey "16" "CloseRepaymentOrder" (sampleRepayment "13") (sampleTransfer "2")]

/-- The address that the collector registers to have two records deleted. -/
def misnamedAddress (target : Text) : Text :=
  sample.makeAddress .addr ("ethereum".toList ++ target ++ sample.makeAddress .bidOrder "13".toList)

/-- In the first block, the collector bids, registers an address that reads as an offer of the
bid to any record, and makes a deal order of the address, which deletes the record. -/
def deletes (target : Text) : List Turn :=
  [order collectorKey "13" "AddBidOrder" "0x3",
    .submit collectorKey "14".toList (call "RegisterAddress" [("p1", "ethereum".toList),
      ("p2", target), ("p3", sample.makeAddress .bidOrder "13".toList)]),
    request collectorKey "15" "AddDealOrder" (misnamedAddress target) "100".toList]

end Creditcoin
