import ScriptedIR.Script.Session

/-!
Sample programs.
-/

namespace ScriptedIR

structure Sample where
  name : String
  description : String
  program : Except ScriptError Program

namespace Sample

def int (n : Int64) : Expr := .operand (.int n)

def text (s : String) : Expr := .operand (.str s)

def effect (function : String) (args : List Expr) : Stmt := .call (text function) args none

def unary : Ty.Signature := { result := .i32, params := [.i32] }

def printf : Defining Unit := do
  let _ ← Library.declareExternal "printf"
    { result := .i32, params := [.bytePointer], variadic := true }

def mainScript (body : List Stmt) : Defining Unit := do
  let _ ← Library.function "main" Program.mainSignature (.script body)

def define (p : Program) (x : Defining Unit) : Except ScriptError Program :=
  match x p.library with
  | (.ok (), library) => .ok { p with library }
  | (.error e, _) => .error e

def hello : Except ScriptError Program := define (.named "hello") do
  let _ ← Library.declareExternal "puts" { result := .i32, params := [.bytePointer] }
  mainScript [
    effect "puts" [text "Hello, world!"],
    .ret (int 0)]

def loopFactorial : List Stmt := [
  .compute (.alloca .i32 none) "product",
  .store (int 1) (.var "product"),
  .loop [int 2] ["i"]
    (some ([.compute (.operator .sle (.var "i") (.param 0)) "more"], .var "more"))
    (some [
      .compute (.load (.var "product")) "current",
      .compute (.arithmetic .mul (.var "current") (.var "i")) "next",
      .store (.var "next") (.var "product")])
    (some [.compute (.increase (.var "i") (int 1)) none])
    none,
  .compute (.load (.var "product")) "result",
  .ret (.var "result")]

def recursiveFactorial : List Stmt := [
  .compute (.operator .sle (.param 0) (int 1)) "small",
  .conditionalRet (.var "small") (int 1) none,
  .compute (.arithmetic .sub (.param 0) (int 1)) "smaller",
  .call (text "factorial") [.var "smaller"] "rest",
  .compute (.arithmetic .mul (.param 0) (.var "rest")) "result",
  .ret (.var "result")]

def factorial : Except ScriptError Program := define (.named "factorial") do
  printf
  let _ ← Library.function "loop_factorial" unary (.script loopFactorial)
  let _ ← Library.function "factorial" unary (.script recursiveFactorial)
  mainScript [
    .call (text "loop_factorial") [int 6] "iterative",
    .call (text "factorial") [int 6] "recursive",
    effect "printf" [text "%d %d\n", .var "iterative", .var "recursive"],
    .ret (int 0)]

def countdown : Except ScriptError Program := define (.named "countdown") do
  printf
  mainScript [
    .loop [int 5] ["n"]
      (some ([.compute (.operator .sgt (.var "n") (int 0)) "more"], .var "more"))
      (some [
        effect "printf" [text "%d\n", .var "n"],
        .compute (.operator .eq (.var "n") (int 2)) "stop",
        .cond (.var "stop") (.body [.branch .exit]) none none])
      (some [.compute (.decrease (.var "n") (int 1)) none])
      none,
    .ret (int 0)]

def pointer : Except ScriptError Program := do
  let (result, session) := ({} : Session).child .space 0 "math"
  let math ← result
  let (result, session) := session.child .library math "ops"
  let ops ← result
  let (result, library) := Library.function "triple" unary
    (.script [.compute (.arithmetic .mul (.param 0) (int 3)) "result", .ret (.var "result")])
    (((session.node? ops).bind (·.content.library?)).getD (.named "ops"))
  let _ ← result
  let session := session.modifyNode ops fun n => { n with content := .library library }
  let (result, session) := session.child .program math "pointer"
  let app ← result
  let (result, session) := session.importInto app "ops"
  let _ ← result
  define (((session.node? app).bind (·.content.program?)).getD (.named "pointer")) do
    printf
    mainScript [
      .call (.address "triple") [int 14] "result",
      effect "printf" [text "%d\n", .var "result"],
      .ret (int 0)]

def all : List Sample := [
  { name := "hello", description := "print a greeting through puts", program := hello },
  { name := "factorial", description := "iterative and recursive factorial of 6",
    program := factorial },
  { name := "countdown", description := "loop from 5 down to 1, stopping early on 2",
    program := countdown },
  { name := "pointer", description := "call a library function through its address",
    program := pointer }]

def find? (name : String) : Option Sample := all.find? (·.name = name)

end Sample

end ScriptedIR
