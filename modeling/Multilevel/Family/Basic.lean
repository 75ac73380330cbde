import Multilevel.Text.Blank
import Multilevel.Text.Lower

/-!
# Families of response distributions

A family couples the distribution of a response with a link function, which takes the mean of the
response to the scale of the linear predictor. A distribution admits some links, the first of
which is its default, brings parameters of its own and constrains the response. Where a family is
read from its name, blanks around the name and the case of its letters do not matter.
-/
namespace Multilevel

/-- A link function. -/
inductive Link where
  | identity
  | log
  | inverse
  | sqrt
  | logit
  | probit
  | cloglog
  deriving Repr, DecidableEq, Inhabited

/-- All link functions. -/
def Link.all : List Link := [.identity, .log, .inverse, .sqrt, .logit, .probit, .cloglog]

/-- The name of a link function. -/
def Link.name : Link → String
  | identity => "identity"
  | log => "log"
  | inverse => "inverse"
  | sqrt => "sqrt"
  | logit => "logit"
  | probit => "probit"
  | cloglog => "cloglog"

/-- What values a response may take. -/
inductive ResponseKind where
  /-- Any finite numbers. -/
  | real
  /-- Counts. -/
  | count
  /-- Zeros and ones. -/
  | binary
  /-- Successes among a number of trials. -/
  | trials
  deriving Repr, DecidableEq, Inhabited

/-- The name of a response kind. -/
def ResponseKind.name : ResponseKind → String
  | real => "real"
  | count => "count"
  | binary => "binary"
  | trials => "trials"

/-- A parameter that a distribution brings along. -/
inductive Auxiliary where
  /-- The residual standard deviation. -/
  | sigma
  /-- The degrees of freedom. -/
  | nu
  /-- The overdispersion. -/
  | shape
  deriving Repr, DecidableEq, Inhabited

/-- The name of an auxiliary parameter. -/
def Auxiliary.name : Auxiliary → String
  | sigma => "sigma"
  | nu => "nu"
  | shape => "shape"

/-- The lower bound of an auxiliary parameter. -/
def Auxiliary.lower : Auxiliary → String
  | nu => "1"
  | _ => "0"

/-- The distribution of a response. -/
inductive Distribution where
  | gaussian
  | student
  | poisson
  | negbinomial
  | bernoulli
  | binomial
  deriving Repr, DecidableEq, Inhabited

namespace Distribution

/-- All distributions. -/
def all : List Distribution := [gaussian, student, poisson, negbinomial, bernoulli, binomial]

/-- Every distribution is listed. -/
theorem mem_all (d : Distribution) : d ∈ all := by cases d <;> decide

/-- The name of a distribution. -/
def name : Distribution → String
  | gaussian => "gaussian"
  | student => "student"
  | poisson => "poisson"
  | negbinomial => "negbinomial"
  | bernoulli => "bernoulli"
  | binomial => "binomial"

/-- The default link of a distribution. -/
def defaultLink : Distribution → Link
  | gaussian | student => .identity
  | poisson | negbinomial => .log
  | bernoulli | binomial => .logit

/-- The links that a distribution admits, its default first. -/
def links : Distribution → List Link
  | gaussian | student => [.identity, .log, .inverse]
  | poisson | negbinomial => [.log, .identity, .sqrt]
  | bernoulli | binomial => [.logit, .probit, .cloglog]

/-- The default link is admitted. -/
theorem defaultLink_mem (d : Distribution) : d.defaultLink ∈ d.links := by cases d <;> decide

/-- The parameters that a distribution brings along. -/
def auxiliaries : Distribution → List Auxiliary
  | gaussian => [.sigma]
  | student => [.sigma, .nu]
  | negbinomial => [.shape]
  | poisson | bernoulli | binomial => []

/-- What values the response may take. -/
def responseKind : Distribution → ResponseKind
  | gaussian | student => .real
  | poisson | negbinomial => .count
  | bernoulli => .binary
  | binomial => .trials

/-- The distribution of a name. -/
def ofName? (name : String) : Option Distribution := all.find? fun d => d.name == name

end Distribution

/-- A fault of a family. -/
inductive FamilyError where
  /-- No family has the given name. -/
  | unknown (name : String)
  /-- No family has the given name; the report lists all families. -/
  | unknownListed (name : String)
  /-- The distribution does not admit the link. -/
  | link (link : String) (distribution : Distribution)
  deriving Repr, DecidableEq

/-- The text that reports a fault. -/
def FamilyError.message : FamilyError → String
  | .unknown name => s!"Unknown family '{name}'"
  | .unknownListed name =>
    s!"Unknown family '{name}'. Supported families are: " ++
      ", ".intercalate (Distribution.all.map Distribution.name)
  | .link given distribution =>
    s!"Link '{given}' is not supported by family '{distribution.name}'. Supported links are: " ++
      ", ".intercalate (distribution.links.map Link.name)

/-- A distribution with one of the links that it admits. -/
structure Family where
  /-- The distribution of the response. -/
  distribution : Distribution
  /-- The link function. -/
  link : Link
  /-- The distribution admits the link. -/
  admitted : link ∈ distribution.links := by decide
  deriving DecidableEq

namespace Family

/-- The normal distribution of a response on its own scale. -/
def gaussian : Family := ⟨.gaussian, .identity, by decide⟩

/-- A distribution with its default link. -/
def ofDistribution (d : Distribution) : Family := ⟨d, d.defaultLink, d.defaultLink_mem⟩

/-- A distribution with the link of a name. -/
def withLink (distribution : Distribution) (name : String) : Except FamilyError Family :=
  match distribution.links.attach.find? fun link => link.1.name == name with
  | some link => .ok ⟨distribution, link.1, link.2⟩
  | none => .error (.link name distribution)

/-- The family of a name and the name of a link, which must both be known. -/
def ofNames (name link : String) : Except FamilyError Family :=
  match Distribution.ofName? name with
  | some distribution => withLink distribution link
  | none => .error (.unknownListed name)

/-- A distribution with the link of a name, or with its default link for an empty name. -/
def make (distribution : Distribution) (link : String) : Except FamilyError Family :=
  if link.isEmpty then .ok (ofDistribution distribution) else withLink distribution link

/-- The family of a name, with its default link. -/
def read (text : String) : Except FamilyError Family :=
  let name := Text.lower (Text.strip text)
  match Distribution.ofName? name with
  | some distribution => .ok (ofDistribution distribution)
  | none => .error (.unknown name)

end Family

end Multilevel
