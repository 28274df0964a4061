import GemScribe.Main
import GemScribe.Proofs.Outcome
import GemScribe.Proofs.Stat.Grouping
import GemScribe.Proofs.Stat.Request
import GemScribe.Proofs.Stat.Cover
import GemScribe.Proofs.Number.Exact
import GemScribe.Proofs.Stat.Limits
import GemScribe.Proofs.Number.Rounding
import GemScribe.Proofs.Number.Numeral
import GemScribe.Proofs.Stat.Count
import GemScribe.Proofs.Stat.Duration
import GemScribe.Proofs.Stat.Seconds
import GemScribe.Proofs.Stat.Skipping
import GemScribe.Proofs.Text.Signs
import GemScribe.Proofs.Text.Lines
import GemScribe.Proofs.Stat.Reading
import GemScribe.Proofs.Stat.RoundTrip
import GemScribe.Proofs.Number.Shown
import GemScribe.Proofs.Stat.Reduced
import GemScribe.Proofs.Stat.Filling
import GemScribe.Proofs.Stat.CastTime
import GemScribe.Proofs.Stat.Step
import GemScribe.Proofs.Stat.Arrival
import GemScribe.Proofs.Stat.Independence
import GemScribe.Proofs.Stat.Account
import GemScribe.Proofs.Stat.LineCount
import GemScribe.Proofs.Stat.FileAppend
import GemScribe.Proofs.Stat.Shadowing
import GemScribe.Proofs.Stat.Undescribed
import GemScribe.Proofs.Number.Magnitude
import GemScribe.Proofs.Stat.Plain
import GemScribe.Proofs.Gem.Requirement
import GemScribe.Proofs.Gem.Column
import GemScribe.Proofs.Gem.Quality
import GemScribe.Proofs.Gem.Levels
import GemScribe.Proofs.Gem.Constant
import GemScribe.Proofs.Gem.Ending
import GemScribe.Proofs.Gem.Insertion
import GemScribe.Proofs.Gem.FirstLevel
import GemScribe.Proofs.Wiki.Keys
import GemScribe.Proofs.Wiki.Table
import GemScribe.Proofs.Wiki.ReadBack
import GemScribe.Proofs.Stat.Cleaning
import GemScribe.Proofs.Stat.Simultaneous
import GemScribe.Proofs.Number.Nearest
import GemScribe.Proofs.Number.Significand
import GemScribe.Proofs.Number.Shortest
import GemScribe.Proofs.Number.Written
import GemScribe.Proofs.Number.PlainDecimal
import GemScribe.Proofs.Stat.Converted
import GemScribe.Proofs.Gem.Percent
import GemScribe.Proofs.Gem.PercentTemplate
import GemScribe.Proofs.Gem.QualityRange
import GemScribe.Proofs.Number.Closest
import GemScribe.Proofs.Number.HalfUp
import GemScribe.Proofs.Number.Order
import GemScribe.Proofs.Number.ReadAgain
import GemScribe.Proofs.Stat.LinkWording
import GemScribe.Proofs.Stat.Tidy
import GemScribe.Proofs.Gem.LinkText
import GemScribe.Proofs.Stat.Keyword
import GemScribe.Proofs.Gem.Positions
import GemScribe.Proofs.Gem.Extension
import GemScribe.Proofs.Gem.StatSet
import GemScribe.Proofs.Gem.AnyOrder
import GemScribe.Proofs.Number.WholeText
import GemScribe.Proofs.Settings.Environment
import GemScribe.Proofs.Command.Act
import GemScribe.Proofs.Command.Directories
import GemScribe.Proofs.Command.AllOrNothing
import GemScribe.Proofs.Gem.Growth
import GemScribe.Proofs.Stat.Regrouping
import GemScribe.Proofs.Gem.Pairing
