import Click.Description
import Click.Producers
import Click.Endpoint
import Click.DemoServers
import Click.SensorAccessors
import Click.ControlReadback
import Click.SensorReadback
import Click.SensorObjects
import Click.ObjectOrder
import Click.DemoClient
import Click.Conversation
import Click.SensorContents
import Click.Tracing
import Click.Understanding
import Click.BuilderRange
import Click.DemoArguments
import Click.DemoConversation
import Click.Progress
import Click.CutShort
