import ClubBooking.Binary64.Basic
import ClubBooking.Binary64.Shortest
import ClubBooking.Calendar.Date
import ClubBooking.Calendar.DateTime
import ClubBooking.Calendar.Reader
import ClubBooking.Calendar.TimeOfDay
import ClubBooking.Calendar.Weekday
import ClubBooking.Club.Checks
import ClubBooking.Club.Count
import ClubBooking.Club.Member
import ClubBooking.Club.OperatingHours
import ClubBooking.Club.Plan
import ClubBooking.Club.Reservation
import ClubBooking.Club.Resource
import ClubBooking.Decimal.Arith
import ClubBooking.Decimal.Basic
import ClubBooking.Decimal.Quotient
import ClubBooking.Decimal.Reader
import ClubBooking.Decimal.Rounding
import ClubBooking.Discount.Coupon
import ClubBooking.Discount.Offer
import ClubBooking.Discount.Policy
import ClubBooking.Discount.Purchase
import ClubBooking.Discount.Rates
import ClubBooking.Discount.Season
import ClubBooking.Document.DiscountPlan
import ClubBooking.Document.DiscountPlanJson
import ClubBooking.Document.EligibilityPlan
import ClubBooking.Document.Entities
import ClubBooking.Document.Values
import ClubBooking.Eligibility.Assembly
import ClubBooking.Eligibility.CapacityRule
import ClubBooking.Eligibility.Condition
import ClubBooking.Eligibility.Level
import ClubBooking.Eligibility.MemberRules
import ClubBooking.Eligibility.Policy
import ClubBooking.Eligibility.Profile
import ClubBooking.Eligibility.Snapshot
import ClubBooking.Eligibility.TimeRules
import ClubBooking.Engine.Basic
import ClubBooking.Engine.Command
import ClubBooking.Engine.Metrics
import ClubBooking.Engine.Store
import ClubBooking.Engine.Table
import ClubBooking.Fault
import ClubBooking.Identifier
import ClubBooking.Interval.DateRange
import ClubBooking.Interval.TimeSlot
import ClubBooking.Json.Basic
import ClubBooking.Json.Fields
import ClubBooking.Json.Reader
import ClubBooking.Json.Token
import ClubBooking.Json.Writer
import ClubBooking.Money.Arith
import ClubBooking.Money.Basic
import ClubBooking.Money.Currency
import ClubBooking.Settings
import ClubBooking.Text.Characters
import ClubBooking.Text.Hex
import ClubBooking.Text.Named
import ClubBooking.Text.Numeral
import ClubBooking.Text.Quoted
import ClubBooking.Proofs.Calendar.Shift
import ClubBooking.Proofs.Decimal.Exact
import ClubBooking.Proofs.Discount.Account
import ClubBooking.Proofs.Discount.Bounds
import ClubBooking.Proofs.Discount.Choice
import ClubBooking.Proofs.Discount.Dominance
import ClubBooking.Proofs.Discount.Monotone
import ClubBooking.Proofs.Discount.Refusals
import ClubBooking.Proofs.Discount.Split
import ClubBooking.Proofs.Discount.Terms
import ClubBooking.Proofs.Discount.Totality
import ClubBooking.Proofs.Document.Acceptance
import ClubBooking.Proofs.Document.PlanCurrency
import ClubBooking.Proofs.Document.RoundTrip
import ClubBooking.Proofs.Eligibility.Leniency
import ClubBooking.Proofs.Eligibility.Reasons
import ClubBooking.Proofs.Eligibility.Relief
import ClubBooking.Proofs.Engine.Bookings
import ClubBooking.Proofs.Engine.HeldLimit
import ClubBooking.Proofs.Engine.Integrity
import ClubBooking.Proofs.Engine.Seats
import ClubBooking.Proofs.Engine.Use
import ClubBooking.Proofs.Money.Minor
import ClubBooking.Proofs.Money.Rate
import ClubBooking.Proofs.Document.Window
import ClubBooking.Proofs.Eligibility.Asking
import ClubBooking.Proofs.Engine.Counts
import ClubBooking.Proofs.Money.Grid
import ClubBooking.Proofs.Club.Opening
import ClubBooking.Proofs.Decimal.Kept
import ClubBooking.Proofs.Eligibility.Capacity
import ClubBooking.Proofs.Discount.Unapplied
import ClubBooking.Proofs.Discount.Redemption
import ClubBooking.Proofs.Eligibility.Deadlines
import ClubBooking.Proofs.Discount.Pooled
import ClubBooking.Proofs.Discount.Largest
import ClubBooking.Proofs.Discount.Nested
import ClubBooking.Proofs.Interval.Sets
import ClubBooking.Proofs.Discount.Seasons
import ClubBooking.Proofs.Eligibility.Assembling
import ClubBooking.Proofs.Money.Twice
import ClubBooking.Proofs.Calendar.ClockText
import ClubBooking.Proofs.Document.ClockWindow
