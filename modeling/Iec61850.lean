import Iec61850.Client.Directory
import Iec61850.Client.JournalPaging
import Iec61850.Client.Outstanding
import Iec61850.Client.ReportFolding
import Iec61850.Client.Subscription
import Iec61850.Control.Answering
import Iec61850.Control.Comparison
import Iec61850.Control.Ending
import Iec61850.Control.Parameters
import Iec61850.Control.Notifications
import Iec61850.Goose.Supervision
import Iec61850.Iso.Delivery
import Iec61850.Mms.AccessSpecification
import Iec61850.Mms.Integers
import Iec61850.Reporting.EventOrder
import Iec61850.Reporting.Interrogation
import Iec61850.Reporting.Ownership
import Iec61850.Reporting.Preconfigured
import Iec61850.Reporting.Refusal
import Iec61850.Reporting.Representation
import Iec61850.Reporting.Restart
import Iec61850.Reporting.Resync.Safety
import Iec61850.Reporting.Watches
import Iec61850.Reporting.Writers
import Iec61850.Service.Lifecycle
import Iec61850.SettingGroups.Expiry
import Iec61850.Sv.Subscriber
