import Deduction.Policy.Loading
import Deduction.Service.Body
import Deduction.Service.Reply
import Deduction.Worker.Basic

namespace Deduction.Service

structure Request where
  method : String
  target : String
  body : Option Value := none

structure Response where
  status : Nat
  body : Value

inductive Route
  | validate
  | rulesets
  | health
  deriving DecidableEq, Repr

def Route.path : Route → String
  | .validate => "/api/proof/validate"
  | .rulesets => "/api/rulesets"
  | .health => "/api/health"

def Route.method : Route → String
  | .validate => "POST"
  | .rulesets => "GET"
  | .health => "GET"

def Route.all : List Route := [.validate, .rulesets, .health]

def Route.ofPath? (path : List Char) : Option Route :=
  Route.all.find? fun route => route.path.toList == path

/-- The path of a target, without its query, and with a slash in front. -/
def pathOf (target : String) : List Char :=
  let path := target.toList.takeWhile fun c => c != '?' && c != '#'
  if path.head? == some '/' then path else '/' :: path

/-- A path without the slashes at its end. -/
def withoutSlashes (path : List Char) : List Char :=
  (path.reverse.dropWhile (· == '/')).reverse

/-- The route of a target. One with slashes at its end leads to the one without. -/
def Route.ofTarget? (target : String) : Option Route :=
  let path := pathOf target
  (Route.ofPath? path).or (Route.ofPath? (withoutSlashes path))

def detail (status : Nat) (message : String) : Response :=
  ⟨status, .object [("detail", .text message)]⟩

/-- The answer to a verdict. One that is no reply is a fault of the service. -/
def tell (codec : Codec) (verdict : Verdict) : Response :=
  match codec.reply [.key "response"] verdict.toValue with
  | .ok reply => ⟨200, codec.writeReply reply⟩
  | .error _ => detail 500 "Internal Server Error"

/-- The answer to a document, validated by a worker, and the worker after it. -/
def answer (codec : Codec) (schedule : Schedule) (worker : Worker) (body : Option Value) :
    Response × Worker :=
  match readDocument codec body with
  | .error found => (⟨422, .list (found.map Complaint.toValue)⟩, worker)
  | .ok document =>
      match worker.runOn schedule document none with
      | (.ok run, next) => (tell codec run.validation.verdict, next)
      | (.error error, next) => (detail 400 error.message, next)

/-- Answers a request. The policy is looked at only where documents are validated, and before the
body is. -/
def respond (codec : Codec) (yaml : Yaml.Reader) (files : Files) (policyFile : Option String)
    (request : Request) : Except LoadFault Response :=
  match Route.ofTarget? request.target with
  | none => .ok (detail 404 "Not Found")
  | some route =>
      if request.method != route.method then .ok (detail 405 "Method Not Allowed")
      else
        match route with
        | .health => .ok ⟨200, .object [("status", .text "ok")]⟩
        | .rulesets => .ok ⟨200, .object [("rulesets", Ruleset.catalog)]⟩
        | .validate =>
            match Policy.ofProcess yaml files policyFile with
            | .ok (policy, _) => .ok (answer codec .prompt (.start policy) request.body).1
            | .error fault => .error fault

end Deduction.Service
