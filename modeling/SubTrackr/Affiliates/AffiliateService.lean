import Mathlib.Data.Rat.Floor

namespace SubTrackr.Affiliates

inductive AffiliateStatus where
  | active | paused | suspended
  deriving DecidableEq

def AffiliateStatus.text : AffiliateStatus → String
  | .active => "active"
  | .paused => "paused"
  | .suspended => "suspended"

inductive FraudStatus where
  | safe | suspicious | flagged
  deriving DecidableEq

inductive CommissionType where
  | percentage | flat | tiered
  deriving DecidableEq

inductive CommissionStatus where
  | pending | approved | paid
  deriving DecidableEq

inductive AttributionModel where
  | firstTouch | lastTouch | linear
  deriving DecidableEq

structure CommissionConfig where
  type : CommissionType
  rate : ℚ
  tiers : Option (List (ℚ × ℚ)) := none

structure AffiliateProgram where
  commissionConfig : CommissionConfig
  attributionWindowDays : ℚ

structure PayoutRecord where
  amount : ℤ

structure Affiliate where
  (referrerAddress programId referralCode : String)
  paymentThreshold : ℤ := 10000
  status : AffiliateStatus := .active
  totalReferrals : ℕ := 0
  totalEarnings : ℤ := 0
  pendingPayout : ℤ := 0
  clicksCount : ℕ := 0
  fraudRiskScore : ℤ := 0
  fraudStatus : FraudStatus := .safe
  payoutHistory : List PayoutRecord := []

structure Commission where
  affiliateId : ℕ
  subscriptionId : String
  amount : ℤ
  status : CommissionStatus := .pending
  isClawbacked : Bool := false
  deriving DecidableEq

structure ReferralClick where
  affiliateId : ℕ
  (referralCode ip userAgent : String)
  timestamp : ℤ

structure AttributionEvent where
  affiliateId : ℕ
  touchWeight : ℚ
  deriving DecidableEq

structure State where
  programs : String → Option AffiliateProgram
  affiliates : List Affiliate := []
  commissions : List Commission := []
  clicks : List ReferralClick := []

structure Conversion where
  subscriptionId : String
  subscriptionAmount : ℚ
  (userIp userAgent : String)
  cookieReferralCode : Option String
  model : AttributionModel := .lastTouch
  now : ℤ

namespace Affiliate

def flood (a : Affiliate) : Affiliate :=
  let score := min 100 (a.fraudRiskScore + 15)
  if 75 < score then { a with fraudRiskScore := score, fraudStatus := .flagged, status := .suspended }
  else if 40 < score then { a with fraudRiskScore := score, fraudStatus := .suspicious }
  else { a with fraudRiskScore := score }

def raised (a : Affiliate) (fraudRiskInc : ℤ) : ℤ := min 100 (a.fraudRiskScore + fraudRiskInc)

def blocks (a : Affiliate) (fraudRiskInc : ℤ) : Bool := decide (0 < fraudRiskInc ∧ 70 < a.raised fraudRiskInc)

def suspend (a : Affiliate) (fraudRiskInc : ℤ) : Affiliate :=
  { a with fraudRiskScore := a.raised fraudRiskInc, fraudStatus := .flagged, status := .suspended }

def suspect (a : Affiliate) (fraudRiskInc : ℤ) : Affiliate :=
  if 0 < fraudRiskInc then { a with fraudRiskScore := a.raised fraudRiskInc, fraudStatus := .suspicious } else a

def earn (a : Affiliate) (amount : ℤ) : Affiliate :=
  { a with totalReferrals := a.totalReferrals + 1, pendingPayout := a.pendingPayout + amount }

def clawback (a : Affiliate) (amount : ℤ) : Affiliate :=
  { a with pendingPayout := max 0 (a.pendingPayout - amount), totalEarnings := max 0 (a.totalEarnings - amount) }

def pay (a : Affiliate) : Affiliate :=
  { a with
    pendingPayout := 0
    totalEarnings := a.totalEarnings + a.pendingPayout
    payoutHistory := a.payoutHistory ++ [⟨a.pendingPayout⟩] }

end Affiliate

namespace State

variable (s : State)

def referralCode (referrerAddress : String) (random : ℕ) : String :=
  "REF-" ++ (String.ofList ((referrerAddress.toList.drop 2).take 6)).toUpper ++ "-" ++ toString (100 + random % 900)

def registerAffiliate (referrerAddress programId : String) (random : ℕ) : State :=
  let affiliate : Affiliate :=
    { referrerAddress := referrerAddress, programId := programId, referralCode := referralCode referrerAddress random }
  { s with affiliates := s.affiliates ++ [affiliate] }

def trackClick (code ip userAgent : String) (now : ℤ) : Except (State × String) State :=
  match s.affiliates.zipIdx.find? fun a => a.1.referralCode = code with
  | none => .error (s, "Affiliate not found with code: " ++ code)
  | some (affiliate, i) =>
    if affiliate.status ≠ .active then .ok s
    else if 15 < (s.clicks.filter fun c => c.ip = ip ∧ now - 60000 < c.timestamp).length then
      .error ({ s with affiliates := s.affiliates.modify i Affiliate.flood }, "Rate limit exceeded for clicks from this source.")
    else
      .ok { s with
        clicks := s.clicks ++ [⟨i, code, ip, userAgent, now⟩]
        affiliates := s.affiliates.modify i fun a => { a with clicksCount := a.clicksCount + 1 } }

def validClick (call : Conversion) (click : ReferralClick) : Bool :=
  match s.affiliates[click.affiliateId]? with
  | none => false
  | some affiliate =>
    let attributionWindowDays := ((s.programs affiliate.programId).map (·.attributionWindowDays)).getD 30
    let byCookie := call.cookieReferralCode.any fun code => code ≠ "" ∧ click.referralCode = code
    (byCookie || decide (click.ip = call.userIp ∧ click.userAgent = call.userAgent)) &&
      decide (((call.now - click.timestamp : ℤ) : ℚ) < attributionWindowDays * 24 * 60 * 60 * 1000)

def validClicks (call : Conversion) : List ReferralClick :=
  (s.clicks.filter (s.validClick call)).mergeSort fun a b => decide (a.timestamp ≤ b.timestamp)

def getAttributedAffiliates (call : Conversion) : List AttributionEvent :=
  match call.model with
  | .firstTouch => (s.validClicks call).head?.toList.map fun click => ⟨click.affiliateId, 1⟩
  | .linear =>
    let uniqueAffiliates := ((s.validClicks call).map (·.affiliateId)).eraseDups
    uniqueAffiliates.map fun affId => ⟨affId, 1 / (uniqueAffiliates.length : ℚ)⟩
  | .lastTouch => (s.validClicks call).getLast?.toList.map fun click => ⟨click.affiliateId, 1⟩

/-- 35 for a click from the same address, and 30 if it was less than five seconds ago. -/
def fraudRiskInc (call : Conversion) (i : ℕ) : ℤ :=
  match s.clicks.find? fun c => c.affiliateId = i ∧ c.ip = call.userIp with
  | none => 0
  | some matchedClick => if call.now - matchedClick.timestamp < 5000 then 65 else 35

def selectedRate (config : CommissionConfig) (subscriptionAmount : ℚ) (tiers : List (ℚ × ℚ)) : ℚ :=
  ((tiers.reverse.find? fun tier => tier.1 ≤ subscriptionAmount).map Prod.snd).getD config.rate

def calculatedComm (program : Option AffiliateProgram) (subscriptionAmount : ℚ) : ℚ :=
  match program with
  | none => subscriptionAmount / 10
  | some program =>
    let config := program.commissionConfig
    match config.type, config.tiers with
    | .flat, _ => config.rate
    | .tiered, some tiers => subscriptionAmount * (selectedRate config subscriptionAmount tiers / 100)
    | _, _ => subscriptionAmount * (config.rate / 100)

def weightedCommission (program : Option AffiliateProgram) (subscriptionAmount touchWeight : ℚ) : ℤ :=
  ⌊calculatedComm program subscriptionAmount * touchWeight * 100 + 1 / 2⌋

end State

structure Progress where
  state : State
  createdCommissions : List Commission := []
  weights : List ℚ := []

def Progress.attribute (call : Conversion) (p : Progress) (attr : AttributionEvent) : Except (State × String) Progress :=
  let s := p.state
  match s.affiliates[attr.affiliateId]? with
  | none => .ok p
  | some affiliate =>
    if affiliate.status ≠ .active then .ok p
    else
      let inc := s.fraudRiskInc call attr.affiliateId
      if affiliate.blocks inc then
        .error ({ s with affiliates := s.affiliates.modify attr.affiliateId (·.suspend inc) },
          "Transaction blocked due to potential self-referral fraud.")
      else
        let commission : Commission :=
          { affiliateId := attr.affiliateId
            subscriptionId := call.subscriptionId
            amount := State.weightedCommission (s.programs affiliate.programId) call.subscriptionAmount attr.touchWeight }
        .ok {
          state := { s with
            commissions := s.commissions ++ [commission]
            affiliates := s.affiliates.modify attr.affiliateId fun a => (a.suspect inc).earn commission.amount }
          createdCommissions := p.createdCommissions ++ [commission]
          weights := p.weights ++ [attr.touchWeight] }

def Commission.isDue (c : Commission) (subscriptionId : String) : Bool :=
  decide (c.subscriptionId = subscriptionId ∧ c.status ≠ .paid ∧ c.isClawbacked = false)

namespace State

variable (s : State)

def convertReferral (call : Conversion) : Except (State × String) Progress :=
  (s.getAttributedAffiliates call).foldlM (Progress.attribute call) { state := s }

def processClawback (subscriptionId : String) : State × ℤ :=
  let due := s.commissions.filter (·.isDue subscriptionId)
  ({ s with
      commissions := s.commissions.map fun c =>
        if c.isDue subscriptionId then { c with isClawbacked := true, status := .pending } else c
      affiliates := due.foldl (fun affiliates c => affiliates.modify c.affiliateId (·.clawback c.amount)) s.affiliates },
    (due.map (·.amount)).sum)

def requestPayout (affiliateId : ℕ) : Except String (State × PayoutRecord) :=
  match s.affiliates[affiliateId]? with
  | none => .error "Affiliate not found"
  | some affiliate =>
    if affiliate.status ≠ .active then .error ("Affiliate status is not active: " ++ affiliate.status.text)
    else if affiliate.pendingPayout < affiliate.paymentThreshold then
      .error ("Minimum payout threshold not met. Required: $" ++ toString (affiliate.paymentThreshold / 100))
    else
      .ok ({ s with
        affiliates := s.affiliates.modify affiliateId Affiliate.pay
        commissions := s.commissions.map fun c =>
          if c.affiliateId = affiliateId ∧ c.status = .pending then { c with status := .paid } else c },
        ⟨affiliate.pendingPayout⟩)

end State

inductive Action where
  | registerAffiliate (referrerAddress programId : String) (random : ℕ)
  | trackClick (referralCode ip userAgent : String) (now : ℤ)
  | convertReferral (call : Conversion)
  | processClawback (subscriptionId : String)
  | requestPayout (affiliateId : ℕ)

def State.step (s : State) : Action → State
  | .registerAffiliate referrerAddress programId random => s.registerAffiliate referrerAddress programId random
  | .trackClick code ip userAgent now =>
    match s.trackClick code ip userAgent now with
    | .ok s' => s'
    | .error (s', _) => s'
  | .convertReferral call =>
    match s.convertReferral call with
    | .ok progress => progress.state
    | .error (s', _) => s'
  | .processClawback subscriptionId => (s.processClawback subscriptionId).1
  | .requestPayout affiliateId =>
    match s.requestPayout affiliateId with
    | .ok (s', _) => s'
    | .error _ => s

end SubTrackr.Affiliates
