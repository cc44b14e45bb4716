import DialectBench.Suite.Basic

/-!
# Tests that need other libraries

Two tests of whole models that come from other libraries: one that puts sentences into another
language, and one that classifies a sentence.  Loading them already makes library calls, and they
keep some of the results for later.
-/

namespace DialectBench.Assets

open Suite

/-! ## Sentences into another language -/

/-- The number of words that the model knows. -/
def vocabularySize : Nat := 100

/-- The class of dictionaries. -/
def dictionaryClass : String := "fairseq.data.dictionary.Dictionary"

/-- Adds a word to the dictionary. -/
def addSymbol (word : String) (keywords : List (String × Expr)) : Stmt :=
  .run (methodWith "add_symbol" (.var "dictionary") [.value (.str word)] keywords)

/-- Makes a dictionary of the numbers below a size. -/
def makeDictionary (size : Nat) : List Stmt :=
  .set "dictionary" (.call dictionaryClass [] []) ::
    (List.range size).map fun n => addSymbol (toString n) [("n", int 1000)]

/-- Makes a task, whose dictionary is both source and target; some tasks also know a blank. -/
def makeTask (withBlank : Bool) : List Stmt :=
  makeDictionary vocabularySize ++ if withBlank then [addSymbol "<ctc_blank>" []] else []

/-- A parser of options. -/
def parser : Expr := .value (.symbol .parser)

/-- Options of the model. -/
def modelSettings : Expr :=
  .value (.symbol (.settings [("encoder_layers", 2), ("decoder_layers", 1)]))

/-- The tokens of the best result for a sentence. -/
def bestTokens (sentence : Int) : Expr :=
  item (item (item (.var "result") (int sentence)) (int 0)) (.value (.str "tokens"))

/-- The model that puts sentences into another language. -/
def sequenceModel : Blueprint where
  className := "BasicMtModule"
  init :=
    [.run (.call "fairseq.tasks.fairseq_task.LegacyFairseqTask.add_args" [parser] [])] ++
    makeTask false ++
    [.run (.call "fairseq.models.transformer.TransformerModel.add_args" [parser] []),
     .set "model" (.call "fairseq.models.transformer.TransformerModel.build_model"
       [modelSettings, .value (.symbol .task)] []),
     .setField "sequence_generator" (.call "fairseq.sequence_generator.SequenceGenerator"
       [.list [.var "model"], .var "dictionary"]
       [("beam_size", int 2), ("no_repeat_ngram_size", int 2), ("max_len_b", int 10)])]
  params := [("src_tokens", i64 [2, -1]), ("src_lengths", i64 [2])]
  body :=
    [.set "result" (layer "sequence_generator" (.dict [("net_input", .dict
      [("src_tokens", .var "src_tokens"), ("src_lengths", .var "src_lengths")])]))]
  result := .tuple [bestTokens 0, bestTokens 1]

/-- The test of the model on two random sentences, each with the mark of its end. -/
def sequenceTest : SuiteTest where
  name := "BasicMtModule_basic"
  program := sequenceModel
  steps := [
    .set "src_tokens" (method "long" (torch "randint" [int (vocabularySize / 4 : Nat),
      int (vocabularySize / 3 : Nat), shape [2, 10]]) []),
    .set "src_tokens" (torch "cat" [.tuple [.var "src_tokens",
      torch "LongTensor" [.list [.list [.var "end"], .list [.var "end"]]]], int (-1)]),
    .set "src_lengths" (torch "LongTensor" [ints [7, 10]]),
    forward [.var "src_tokens", .var "src_lengths"]]

/-! ## Classes of sentences -/

/-- The name of the model that classifies sentences. -/
def classifierName : Expr := .value (.str "philschmid/MiniLM-L6-H384-uncased-sst2")

/-- The tokens of a sentence. -/
def sentenceTokens (sentence : String) : Expr :=
  torch "tensor" [.list [method "encode" (.var "tokenizer") [.value (.str sentence)]]]

/-- What the classifier gives for tokens. -/
def classified (tokens : Expr) : Expr :=
  item (method "forward" (.field "model") [tokens]) (int 0)

/-- The class of the classifier. -/
def classifierClass : String := "MiniLMSequenceClassification"

/-- The method of the compiled classifier. -/
def compiledForward : Expr := .member (.field "compiled") "forward"

/-- The compiled classifier.  The classifier is traced on a sentence, and the compiled method is
    marked as exported and given the types of its arguments. -/
def classifier : Blueprint where
  className := classifierClass
  init := [
    .setField "model" (.call "transformers.AutoModelForSequenceClassification.from_pretrained"
      [classifierName] [("num_labels", int 2), ("output_attentions", flag false),
        ("output_hidden_states", flag false), ("torchscript", flag true)]),
    .run (method "eval" (.field "model") []),
    .set "traced" (torch "jit.trace_module" [Blueprint.self classifierClass,
      .dict [("forward", .var "trace_tokens")]]),
    .run (classified (.var "trace_tokens")),
    .setField "compiled" (.member (.var "traced") "_actual_script_module"),
    .run (.call "setattr" [compiledForward, .value (.str "_torch_mlir_export"), flag true] []),
    .run (.call "setattr" [compiledForward, .value (.str "_torch_mlir_arg_annotations"),
      .value (.list [.none, i64 [-1, -1]])] [])]
  params := [("tokens", i64 [-1, -1])]
  result := method "forward" (.field "compiled") [.var "tokens"]

/-- The test of the classifier on one sentence. -/
def classifierTest : SuiteTest where
  name := "MiniLMSequenceClassification_basic"
  program := classifier
  steps := [forward [.var "test_tokens"]]

/-! ## Loading -/

/-- A test of this collection. -/
structure AssetTest where
  test : SuiteTest
  /-- Whether the factory gives a program of a class, of which a compiler can be told. -/
  isProgram : Bool

/-- The tests, in order of registration. -/
def tests : List AssetTest := [⟨sequenceTest, true⟩, ⟨classifierTest, false⟩]

/-- What loading the tests does: one model of each library is made to learn the mark of the end of
    a sentence and the tokens of two sentences. -/
def loading : List Stmt :=
  sequenceModel.init ++ [
    .set "end" (.member (.field "sequence_generator") "eos"),
    seed,
    .set "tokenizer" (.call "transformers.AutoTokenizer.from_pretrained" [classifierName] []),
    .set "trace_tokens" (sentenceTokens "how do you like the project"),
    .set "test_tokens" (sentenceTokens "this project is very interesting")]

/-- The names that are known, and the world, after loading. -/
def loaded : Except Fault (List (String × Value)) × World :=
  let (out, w) := onStore (onLog (Stmt.execAll .numbering loading (.ofVars []))) World.fresh
  (out.map Scope.vars, w)

/-- What a test of this collection does after loading. -/
def AssetTest.account (t : AssetTest) : Except Fault Account :=
  loaded.1.bind fun known => t.test.account known loaded.2

/-- The library calls of making a task, and its dictionary. -/
def taskCalls (withBlank : Bool) : Except Fault (List LibraryCall × Value) :=
  let (out, log) := (do
    let scope ← Stmt.execAll .numbering (makeTask withBlank) (.ofVars [])
    (Expr.var "dictionary").eval .numbering scope : Run Log Value) #[]
  out.map fun d => (log.toList, d)

/-- The library calls of making a dictionary. -/
def dictionaryCalls (size : Int) : List LibraryCall :=
  (Stmt.execAll .numbering (makeDictionary size.toNat) (.ofVars []) #[]).2.toList

end DialectBench.Assets
